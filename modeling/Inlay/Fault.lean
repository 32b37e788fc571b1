import Inlay.Text.Quoted
import Inlay.Text.Utf8

/-! Faults: what a host or the engine raises, by cause. A fault is reported by its kind and its
message. -/

namespace Inlay

inductive Fault where
  | host (kind message : String)
  | unreadableInteger (digits : Nat)
  | unwritableInteger
  | notFinite (shown : Option String)
  | notEncodable (typeName : String)
  | keyNotEncodable (typeName : String)
  | notExposed (method : String)
  | noAttribute (typeName name : String)
  | nameNotText (typeName : String)
  | notCallable (typeName : String)
  | notContainer (typeName : String)
  | notIterable (typeName : String)
  | soughtInText (typeName : String)
  | soughtInOctets (typeName : String)
  | notSpread (callee typeName : String)
  | lackingArguments (method : String) (names : List String)
  | surplusArguments (method : String) (expected given : Nat)
  | tooDeep
  | circular
  /-- A stop signal out of the reading of parts. -/
  | partsStopped
  | needlessArguments (method : String) (given : Nat)
  | notOneArgument (method : String) (given : Nat)
  | wrongOperands (expected given : Nat)
  | madeOfArguments (typeName : String)
  | preparedWithArguments (typeName : String)
  | noClass (typeName : Option String)
  | noLayout (typeName : String)
  | layoutNotText (typeName : String)
  | sizeless (typeName : String)
  | notHashable (typeName : String)
  | notOctet
  | notCharacter (typeName : String)
  | notOneCharacter (length : Nat)
  | notText (place : Nat) (typeName : String)
  | notPair (length : Nat)
  | zeroStep
  | nullInName
  | longNameNotText (typeName : String)
  | classNotClass (typeName : String)
  | holdingsNotTable (typeName : String)
  | classKept
  | notWritable (typeName name : String)
  | noSetter (typeName name : String)
  | noDeleter (typeName name : String)
  | negativeSize
  | oversize
  | overlongRange
  | overlongProtocol
  | nesting (cap : Int) (path : String)
  | functionTaken (name : String)
  | processorTaken (name : String)
  | lengthCapNotPositive
  | lengthCapTooLarge
  | negativeKeyLength
  | notIndex (typeName : String)
  | surplusKeyArguments (given : Nat)
  deriving DecidableEq

namespace Fault

/-- The fault that comes of raising a kind with a message. Some kinds are the same as another, and
some are not made of a message alone. -/
def ofHost (kind message : String) : Fault :=
  match kind with
  | "IOError" | "EnvironmentError" => .host "OSError" message
  | "UnicodeDecodeError" | "UnicodeEncodeError" =>
    .host "TypeError" "function takes exactly 5 arguments (1 given)"
  | "UnicodeTranslateError" => .host "TypeError" "function takes exactly 4 arguments (1 given)"
  | "BaseExceptionGroup" | "ExceptionGroup" =>
    .host "TypeError" "BaseExceptionGroup.__new__() takes exactly 2 arguments (1 given)"
  | kind => .host kind message

def kind : Fault → String
  | .host kind _ => kind
  | .notExposed _ | .noAttribute .. | .notWritable .. | .noSetter .. | .noDeleter .. =>
    "AttributeError"
  | .notEncodable _ | .keyNotEncodable _ | .sizeless _ | .nameNotText _
  | .needlessArguments .. | .notOneArgument .. | .wrongOperands .. | .madeOfArguments _
  | .preparedWithArguments _ | .noClass _ | .noLayout _ | .layoutNotText _
  | .longNameNotText _ | .classNotClass _ | .holdingsNotTable _ | .classKept
  | .notHashable _ | .notCharacter _ | .notOneCharacter _ | .notText ..
  | .notCallable _ | .notContainer _ | .notIterable _ | .soughtInText _ | .soughtInOctets _
  | .notSpread .. | .lackingArguments .. | .surplusArguments .. | .notIndex _
  | .surplusKeyArguments _ => "TypeError"
  | .tooDeep => "RecursionError"
  | .partsStopped => "RuntimeError"
  | .oversize | .overlongRange | .overlongProtocol | .lengthCapTooLarge => "OverflowError"
  | .nesting .. => "TagSyntaxError"
  | .unreadableInteger _ | .unwritableInteger | .notFinite _ | .negativeSize | .functionTaken _
  | .circular | .notOctet | .zeroStep | .nullInName | .notPair _ | .processorTaken _
  | .lengthCapNotPositive | .negativeKeyLength => "ValueError"

def listed : List String → String
  | [] => ""
  | [a] => "'" ++ a ++ "'"
  | [a, b] => "'" ++ a ++ "' and '" ++ b ++ "'"
  | a :: rest => "'" ++ a ++ "', " ++ listed rest

def plural (n : Nat) (word : String) : String := if n = 1 then word else word ++ "s"

def cut (count : Nat) (name : String) : String := String.ofList (Text.Utf8.cut count name.toList)

def message : Fault → String
  | .host kind message => if kind == "KeyError" then Text.quoted message else message
  | .unreadableInteger digits =>
    "Exceeds the limit (4300 digits) for integer string conversion: value has " ++
      toString digits ++ " digits; use sys.set_int_max_str_digits() to increase the limit"
  | .unwritableInteger =>
    "Exceeds the limit (4300 digits) for integer string conversion; " ++
      "use sys.set_int_max_str_digits() to increase the limit"
  | .notFinite shown =>
    "Out of range float values are not JSON compliant" ++ (shown.map (": " ++ ·)).getD ""
  | .notEncodable typeName => "Object of type " ++ typeName ++ " is not JSON serializable"
  | .keyNotEncodable typeName =>
    "keys must be str, int, float, bool or None, not " ++ typeName
  | .notExposed method => "Method not exposed: " ++ method
  | .noAttribute typeName name =>
    "'" ++ cut 50 typeName ++ "' object has no attribute '" ++ name ++ "'"
  | .nameNotText typeName => "attribute name must be string, not '" ++ cut 200 typeName ++ "'"
  | .notCallable typeName => "'" ++ cut 200 typeName ++ "' object is not callable"
  | .notContainer typeName => "argument of type '" ++ cut 200 typeName ++ "' is not iterable"
  | .notIterable typeName => "'" ++ cut 200 typeName ++ "' object is not iterable"
  | .soughtInText typeName =>
    "'in <string>' requires string as left operand, not " ++ cut 100 typeName
  | .soughtInOctets typeName => "a bytes-like object is required, not '" ++ cut 100 typeName ++ "'"
  | .notSpread callee typeName =>
    callee ++ " argument after * must be an iterable, not " ++ cut 200 typeName
  | .lackingArguments method names =>
    method ++ "() missing " ++ toString names.length ++ " required positional " ++
      plural names.length "argument" ++ ": " ++ listed names
  | .surplusArguments method expected given =>
    method ++ "() takes " ++ toString expected ++ " positional " ++ plural expected "argument" ++
      " but " ++ toString given ++ " were given"
  | .tooDeep => "maximum recursion depth exceeded"
  | .circular => "Circular reference detected"
  | .partsStopped => "generator raised StopIteration"
  | .needlessArguments method given =>
    method ++ "() takes no arguments (" ++ toString given ++ " given)"
  | .notOneArgument method given =>
    method ++ "() takes exactly one argument (" ++ toString given ++ " given)"
  | .wrongOperands expected given =>
    (if expected < 2 then "" else " ") ++ "expected " ++ toString expected ++ " " ++
      plural expected "argument" ++ ", got " ++ toString given
  | .madeOfArguments typeName => cut 200 typeName ++ "() takes no arguments"
  | .preparedWithArguments typeName =>
    cut 200 typeName ++ ".__init__() takes exactly one argument (the instance to initialize)"
  | .noClass none => "object.__new__(): not enough arguments"
  | .noClass (some typeName) => "object.__new__(X): X is not a type object (" ++ typeName ++ ")"
  | .noLayout typeName => "unsupported format string passed to " ++ typeName ++ ".__format__"
  | .layoutNotText typeName => "__format__() argument must be str, not " ++ typeName
  | .sizeless typeName => "object of type '" ++ cut 200 typeName ++ "' has no len()"
  | .notHashable typeName => "unhashable type: '" ++ cut 200 typeName ++ "'"
  | .notOctet => "byte must be in range(0, 256)"
  | .notCharacter typeName =>
    "ord() expected string of length 1, but " ++ cut 200 typeName ++ " found"
  | .notOneCharacter length =>
    "ord() expected a character, but string of length " ++ toString length ++ " found"
  | .notText place typeName =>
    "sequence item " ++ toString place ++ ": expected str instance, " ++ cut 80 typeName ++ " found"
  | .notPair length =>
    if length < 2 then
      "not enough values to unpack (expected 2, got " ++ toString length ++ ")"
    else "too many values to unpack (expected 2)"
  | .zeroStep => "range() arg 3 must not be zero"
  | .nullInName => "type name must not contain null characters"
  | .longNameNotText typeName => "type __qualname__ must be a str, not " ++ typeName
  | .classNotClass typeName =>
    "__class__ must be set to a class, not '" ++ cut 200 typeName ++ "' object"
  | .holdingsNotTable typeName =>
    "__dict__ must be set to a dictionary, not a '" ++ cut 200 typeName ++ "'"
  | .classKept => "can't delete __class__ attribute"
  | .noSetter typeName name =>
    "property '" ++ name ++ "' of '" ++ typeName ++ "' object has no setter"
  | .noDeleter typeName name =>
    "property '" ++ name ++ "' of '" ++ typeName ++ "' object has no deleter"
  | .notWritable typeName name =>
    "attribute '" ++ name ++ "' of '" ++ typeName ++ "' objects is not writable"
  | .negativeSize => "__len__() should return >= 0"
  | .oversize => "cannot fit 'int' into an index-sized integer"
  | .overlongRange => "Python int too large to convert to C ssize_t"
  | .overlongProtocol => "Python int too large to convert to C int"
  | .nesting cap path =>
    "Parenthesis nesting exceeds " ++ toString cap ++ " in: " ++
      String.ofList (path.toList.take 64)
  | .functionTaken name => "Function already registered: " ++ name
  | .processorTaken name => "Post-processor already registered: " ++ name
  | .lengthCapNotPositive => "Maximum tag length must be positive"
  | .lengthCapTooLarge => "the repetition number is too large"
  | .negativeKeyLength => "negative argument not allowed"
  | .notIndex typeName => "'" ++ cut 200 typeName ++ "' object cannot be interpreted as an integer"
  | .surplusKeyArguments given =>
    "registryKey_generate() takes from 0 to 1 positional arguments but " ++ toString given ++
      " were given"

def typeKinds : List String := ["TypeError", "FloatOperation", "MultipartConversionError"]

def valueKinds : List String :=
  ["ValueError", "UnicodeError", "UnicodeDecodeError", "UnicodeEncodeError",
   "UnicodeTranslateError", "JSONDecodeError", "UnsupportedOperation", "StatisticsError",
   "AddressValueError", "NetmaskValueError", "IllegalMonthError", "IllegalWeekdayError",
   "ValidationError", "PydanticCustomError", "PydanticKnownError", "PydanticSerializationError",
   "TagSyntaxError"]

def isType (f : Fault) : Bool := typeKinds.contains f.kind

def isTypeOrValue (f : Fault) : Bool := f.isType || valueKinds.contains f.kind

/-- Whether the fault says that an attribute is not there. -/
def saysAbsent (f : Fault) : Bool := ["AttributeError", "FrozenInstanceError"].contains f.kind

/-- The fault that reading parts ends in: a stop signal cannot leave it. -/
def ofReading (f : Fault) : Fault := if f.kind = "StopIteration" then .partsStopped else f

end Fault

end Inlay
