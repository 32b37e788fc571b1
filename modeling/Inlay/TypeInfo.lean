/-! Types by their names, and what belongs to them. -/

namespace Inlay

/-- What belongs to a type. The types that it comes from are listed with the nearest first. -/
structure TypeInfo where
  name : String
  bases : List String := ["object"]
  /-- The sizes of a value and of an item in it, the flags of the type, and two offsets. -/
  sizes : List Nat
  signature : Option String := none
  doc : Option String := none
  slots : List String := []
  methods : List String := []
  properties : List String := []
  fields : List String := []
  classMethods : List String := []
  statics : List String := []
  absent : List String := []

inductive MemberForm where
  | slot
  | method
  | property
  | field
  | classMethod
  | static
  | absent
  deriving DecidableEq

namespace TypeInfo

def object : TypeInfo where
  name := "object"
  bases := []
  sizes := [16, 0, 529664, 0, 0]
  signature := some "()"
  doc := some ("The base class of the class hierarchy.\n\n" ++
    "When called, it accepts no arguments and returns a new featureless\n" ++
    "instance that has no instance attributes and cannot be given any.\n")
  slots :=
    ["__repr__", "__hash__", "__str__", "__getattribute__", "__setattr__", "__delattr__",
     "__lt__", "__le__", "__eq__", "__ne__", "__gt__", "__ge__", "__init__"]
  methods :=
    ["__reduce_ex__", "__reduce__", "__getstate__", "__format__", "__sizeof__", "__dir__"]
  properties := ["__class__"]
  classMethods := ["__subclasshook__", "__init_subclass__"]
  statics := ["__new__"]

def all : List TypeInfo := [
  object,
  { name := "type"
    sizes := [904, 40, 2148031744, 264, 368]
    doc := some ("type(object) -> the object's type\n" ++
      "type(name, bases, dict, **kwds) -> a new type")
    slots :=
      ["__repr__", "__call__", "__getattribute__", "__setattr__", "__delattr__", "__init__",
       "__or__", "__ror__"]
    methods :=
      ["mro", "__subclasses__", "__instancecheck__", "__subclasscheck__", "__dir__", "__sizeof__"]
    properties :=
      ["__name__", "__qualname__", "__bases__", "__module__", "__abstractmethods__", "__dict__",
       "__doc__", "__text_signature__", "__annotations__"]
    fields :=
      ["__basicsize__", "__itemsize__", "__flags__", "__weakrefoffset__", "__base__",
       "__dictoffset__", "__mro__"]
    classMethods := ["__prepare__"]
    statics := ["__new__"] },
  { name := "int"
    sizes := [24, 4, 21501184, 0, 0]
    doc := some ("int([x]) -> integer\nint(x, base=10) -> integer\n\n" ++
      "Convert a number or string to an integer, or return 0 if no arguments\n" ++
      "are given.  If x is a number, return x.__int__().  For floating point\n" ++
      "numbers, this truncates towards zero.\n\n" ++
      "If x is not a number or if base is given, then x must be a string,\n" ++
      "bytes, or bytearray instance representing an integer literal in the\n" ++
      "given base.  The literal can be preceded by '+' or '-' and be surrounded\n" ++
      "by whitespace.  The base defaults to 10.  Valid bases are 0 and 2-36.\n" ++
      "Base 0 means to interpret the base from the string as an integer literal.\n" ++
      ">>> int('0b100', base=0)\n4")
    slots :=
      ["__repr__", "__hash__", "__getattribute__", "__lt__", "__le__", "__eq__", "__ne__", "__gt__",
       "__ge__", "__add__", "__radd__", "__sub__", "__rsub__", "__mul__", "__rmul__", "__mod__",
       "__rmod__", "__divmod__", "__rdivmod__", "__pow__", "__rpow__", "__neg__", "__pos__",
       "__abs__", "__bool__", "__invert__", "__lshift__", "__rlshift__", "__rshift__",
       "__rrshift__", "__and__", "__rand__", "__xor__", "__rxor__", "__or__", "__ror__", "__int__",
       "__float__", "__floordiv__", "__rfloordiv__", "__truediv__", "__rtruediv__", "__index__"]
    methods :=
      ["conjugate", "bit_length", "bit_count", "to_bytes", "as_integer_ratio", "__trunc__",
       "__floor__", "__ceil__", "__round__", "__getnewargs__", "__format__", "__sizeof__"]
    properties := ["real", "imag", "numerator", "denominator"]
    classMethods := ["from_bytes"]
    statics := ["__new__"] },
  { name := "bool"
    bases := ["int", "object"]
    sizes := [32, 4, 21500160, 0, 0]
    doc := some ("bool(x) -> bool\n\n" ++
      "Returns True when the argument x is true, False otherwise.\n" ++
      "The builtins True and False are the only two instances of the class bool.\n" ++
      "The class bool is a subclass of the class int, and cannot be subclassed.")
    slots := ["__repr__", "__and__", "__rand__", "__xor__", "__rxor__", "__or__", "__ror__"]
    statics := ["__new__"] },
  { name := "float"
    sizes := [24, 0, 4723968, 0, 0]
    signature := some "(x=0, /)"
    doc := some "Convert a string or number to a floating point number, if possible."
    slots :=
      ["__repr__", "__hash__", "__getattribute__", "__lt__", "__le__", "__eq__", "__ne__", "__gt__",
       "__ge__", "__add__", "__radd__", "__sub__", "__rsub__", "__mul__", "__rmul__", "__mod__",
       "__rmod__", "__divmod__", "__rdivmod__", "__pow__", "__rpow__", "__neg__", "__pos__",
       "__abs__", "__bool__", "__int__", "__float__", "__floordiv__", "__rfloordiv__",
       "__truediv__", "__rtruediv__"]
    methods :=
      ["conjugate", "__trunc__", "__floor__", "__ceil__", "__round__", "as_integer_ratio", "hex",
       "is_integer", "__getnewargs__", "__format__"]
    properties := ["real", "imag"]
    classMethods := ["fromhex", "__getformat__"]
    statics := ["__new__"] },
  { name := "str"
    sizes := [80, 0, 273159424, 0, 0]
    doc := some ("str(object='') -> str\nstr(bytes_or_buffer[, encoding[, errors]]) -> str\n\n" ++
      "Create a new string object from the given object. If encoding or\n" ++
      "errors is specified, then the object must expose a data buffer\n" ++
      "that will be decoded using the given encoding and error handler.\n" ++
      "Otherwise, returns the result of object.__str__() (if defined)\n" ++
      "or repr(object).\nencoding defaults to sys.getdefaultencoding().\n" ++
      "errors defaults to 'strict'.")
    slots :=
      ["__repr__", "__hash__", "__str__", "__getattribute__", "__lt__", "__le__", "__eq__",
       "__ne__", "__gt__", "__ge__", "__iter__", "__mod__", "__rmod__", "__len__", "__getitem__",
       "__add__", "__mul__", "__rmul__", "__contains__"]
    methods :=
      ["encode", "replace", "split", "rsplit", "join", "capitalize", "casefold", "title", "center",
       "count", "expandtabs", "find", "partition", "index", "ljust", "lower", "lstrip", "rfind",
       "rindex", "rjust", "rstrip", "rpartition", "splitlines", "strip", "swapcase", "translate",
       "upper", "startswith", "endswith", "removeprefix", "removesuffix", "isascii", "islower",
       "isupper", "istitle", "isspace", "isdecimal", "isdigit", "isnumeric", "isalpha", "isalnum",
       "isidentifier", "isprintable", "zfill", "format", "format_map", "__format__", "__sizeof__",
       "__getnewargs__"]
    statics := ["__new__", "maketrans"] },
  { name := "list"
    sizes := [40, 0, 38294816, 0, 0]
    signature := some "(iterable=(), /)"
    doc := some ("Built-in mutable sequence.\n\n" ++
      "If no argument is given, the constructor creates a new empty list.\n" ++
      "The argument must be an iterable if specified.")
    slots :=
      ["__repr__", "__getattribute__", "__lt__", "__le__", "__eq__", "__ne__", "__gt__", "__ge__",
       "__iter__", "__init__", "__len__", "__setitem__", "__delitem__", "__add__", "__mul__",
       "__rmul__", "__contains__", "__iadd__", "__imul__"]
    methods :=
      ["__getitem__", "__reversed__", "__sizeof__", "clear", "copy", "append", "insert", "extend",
       "pop", "remove", "index", "count", "reverse", "sort"]
    classMethods := ["__class_getitem__"]
    statics := ["__new__"]
    absent := ["__hash__"] },
  { name := "dict"
    sizes := [48, 0, 541611328, 0, 0]
    doc := some ("dict() -> new empty dictionary\n" ++
      "dict(mapping) -> new dictionary initialized from a mapping object's\n" ++
      "    (key, value) pairs\n" ++
      "dict(iterable) -> new dictionary initialized as if via:\n    d = \x7b\x7d\n" ++
      "    for k, v in iterable:\n        d[k] = v\n" ++
      "dict(**kwargs) -> new dictionary initialized with the name=value pairs\n" ++
      "    in the keyword argument list.  For example:  dict(one=1, two=2)")
    slots :=
      ["__repr__", "__getattribute__", "__lt__", "__le__", "__eq__", "__ne__", "__gt__", "__ge__",
       "__iter__", "__init__", "__or__", "__ror__", "__ior__", "__len__", "__setitem__",
       "__delitem__"]
    methods :=
      ["__getitem__", "__contains__", "__sizeof__", "get", "setdefault", "pop", "popitem", "keys",
       "items", "values", "update", "clear", "copy", "__reversed__"]
    classMethods := ["fromkeys", "__class_getitem__"]
    statics := ["__new__"]
    absent := ["__hash__"] },
  { name := "NoneType"
    sizes := [16, 0, 528640, 0, 0]
    slots := ["__repr__", "__bool__"]
    statics := ["__new__"] },
  { name := "tuple"
    sizes := [24, 8, 71849248, 0, 0]
    signature := some "(iterable=(), /)"
    doc := some ("Built-in immutable sequence.\n\n" ++
      "If no argument is given, the constructor returns an empty tuple.\n" ++
      "If iterable is specified the tuple is initialized from iterable's items.\n\n" ++
      "If the argument is a tuple, the return value is the same object.")
    slots :=
      ["__repr__", "__hash__", "__getattribute__", "__lt__", "__le__", "__eq__", "__ne__", "__gt__",
       "__ge__", "__iter__", "__len__", "__getitem__", "__add__", "__mul__", "__rmul__",
       "__contains__"]
    methods := ["__getnewargs__", "index", "count"]
    classMethods := ["__class_getitem__"]
    statics := ["__new__"] },
  { name := "bytes"
    sizes := [33, 1, 138941696, 0, 0]
    doc := some ("bytes(iterable_of_ints) -> bytes\n" ++
      "bytes(string, encoding[, errors]) -> bytes\n" ++
      "bytes(bytes_or_buffer) -> immutable copy of bytes_or_buffer\n" ++
      "bytes(int) -> bytes object of size given by the parameter initialized with null bytes\n" ++
      "bytes() -> empty bytes object\n\n" ++
      "Construct an immutable array of bytes from:\n" ++
      "  - an iterable yielding integers in range(256)\n" ++
      "  - a text string encoded using the specified encoding\n" ++
      "  - any object implementing the buffer API.\n  - an integer")
    slots :=
      ["__repr__", "__hash__", "__str__", "__getattribute__", "__lt__", "__le__", "__eq__",
       "__ne__", "__gt__", "__ge__", "__iter__", "__mod__", "__rmod__", "__len__", "__getitem__",
       "__add__", "__mul__", "__rmul__", "__contains__"]
    methods :=
      ["__getnewargs__", "__bytes__", "capitalize", "center", "count", "decode", "endswith",
       "expandtabs", "find", "hex", "index", "isalnum", "isalpha", "isascii", "isdigit", "islower",
       "isspace", "istitle", "isupper", "join", "ljust", "lower", "lstrip", "partition", "replace",
       "removeprefix", "removesuffix", "rfind", "rindex", "rjust", "rpartition", "rsplit", "rstrip",
       "split", "splitlines", "startswith", "strip", "swapcase", "title", "translate", "upper",
       "zfill"]
    classMethods := ["fromhex"]
    statics := ["__new__", "maketrans"] },
  { name := "bytearray"
    sizes := [56, 0, 4723968, 0, 0]
    doc := some ("bytearray(iterable_of_ints) -> bytearray\n" ++
      "bytearray(string, encoding[, errors]) -> bytearray\n" ++
      "bytearray(bytes_or_buffer) -> mutable copy of bytes_or_buffer\n" ++
      "bytearray(int) -> bytes array of size given by the parameter " ++
      "initialized with null bytes\nbytearray() -> empty bytes array\n\n" ++
      "Construct a mutable bytearray object from:\n" ++
      "  - an iterable yielding integers in range(256)\n" ++
      "  - a text string encoded using the specified encoding\n" ++
      "  - a bytes or a buffer object\n" ++
      "  - any object implementing the buffer API.\n  - an integer")
    slots :=
      ["__repr__", "__str__", "__getattribute__", "__lt__", "__le__", "__eq__", "__ne__", "__gt__",
       "__ge__", "__iter__", "__init__", "__mod__", "__rmod__", "__len__", "__getitem__",
       "__setitem__", "__delitem__", "__add__", "__mul__", "__rmul__", "__contains__", "__iadd__",
       "__imul__"]
    methods :=
      ["__alloc__", "__reduce__", "__reduce_ex__", "__sizeof__", "append", "capitalize", "center",
       "clear", "copy", "count", "decode", "endswith", "expandtabs", "extend", "find", "hex",
       "index", "insert", "isalnum", "isalpha", "isascii", "isdigit", "islower", "isspace",
       "istitle", "isupper", "join", "ljust", "lower", "lstrip", "partition", "pop", "remove",
       "replace", "removeprefix", "removesuffix", "reverse", "rfind", "rindex", "rjust",
       "rpartition", "rsplit", "rstrip", "split", "splitlines", "startswith", "strip", "swapcase",
       "title", "translate", "upper", "zfill"]
    classMethods := ["fromhex"]
    statics := ["__new__", "maketrans"]
    absent := ["__hash__"] },
  { name := "range"
    sizes := [48, 0, 528672, 0, 0]
    doc := some ("range(stop) -> range object\nrange(start, stop[, step]) -> range object\n\n" ++
      "Return an object that produces a sequence of integers from start (inclusive)\n" ++
      "to stop (exclusive) by step.  range(i, j) produces i, i+1, i+2, ..., j-1.\n" ++
      "start defaults to 0, and stop is omitted!  range(4) produces 0, 1, 2, 3.\n" ++
      "These are exactly the valid indices for a list of 4 elements.\n" ++
      "When step is given, it specifies the increment (or decrement).")
    slots :=
      ["__repr__", "__hash__", "__getattribute__", "__lt__", "__le__", "__eq__", "__ne__", "__gt__",
       "__ge__", "__iter__", "__bool__", "__len__", "__getitem__", "__contains__"]
    methods := ["__reversed__", "__reduce__", "count", "index"]
    fields := ["start", "stop", "step"]
    statics := ["__new__"] },
  { name := "mappingproxy"
    sizes := [24, 0, 545088, 0, 0]
    slots :=
      ["__repr__", "__str__", "__getattribute__", "__lt__", "__le__", "__eq__", "__ne__", "__gt__",
       "__ge__", "__iter__", "__or__", "__ror__", "__ior__", "__len__", "__getitem__",
       "__contains__"]
    methods := ["get", "keys", "values", "items", "copy", "__reversed__"]
    classMethods := ["__class_getitem__"]
    statics := ["__new__"]
    absent := ["__hash__"] },
  { name := "builtin_function_or_method"
    sizes := [56, 0, 547200, 0, 40]
    slots :=
      ["__repr__", "__hash__", "__call__", "__getattribute__", "__lt__", "__le__", "__eq__",
       "__ne__", "__gt__", "__ge__"]
    methods := ["__reduce__"]
    properties := ["__doc__", "__name__", "__qualname__", "__self__", "__text_signature__"]
    fields := ["__module__"] },
  { name := "method-wrapper"
    sizes := [32, 0, 545152, 0, 0]
    slots :=
      ["__repr__", "__hash__", "__call__", "__getattribute__", "__lt__", "__le__", "__eq__",
       "__ne__", "__gt__", "__ge__"]
    methods := ["__reduce__"]
    properties := ["__objclass__", "__name__", "__qualname__", "__doc__", "__text_signature__"]
    fields := ["__self__"] },
  { name := "method_descriptor"
    sizes := [56, 0, 678272, 0, 0]
    slots := ["__repr__", "__call__", "__getattribute__", "__get__"]
    methods := ["__reduce__"]
    properties := ["__doc__", "__qualname__", "__text_signature__"]
    fields := ["__objclass__", "__name__"] },
  { name := "wrapper_descriptor"
    sizes := [56, 0, 676224, 0, 0]
    slots := ["__repr__", "__call__", "__getattribute__", "__get__"]
    methods := ["__reduce__"]
    properties := ["__doc__", "__qualname__", "__text_signature__"]
    fields := ["__objclass__", "__name__"] },
  { name := "getset_descriptor"
    sizes := [48, 0, 545152, 0, 0]
    slots := ["__repr__", "__getattribute__", "__get__", "__set__", "__delete__"]
    properties := ["__doc__", "__qualname__"]
    fields := ["__objclass__", "__name__"] },
  { name := "member_descriptor"
    sizes := [48, 0, 545152, 0, 0]
    slots := ["__repr__", "__getattribute__", "__get__", "__set__", "__delete__"]
    methods := ["__reduce__"]
    properties := ["__doc__", "__qualname__"]
    fields := ["__objclass__", "__name__"] },
  { name := "classmethod_descriptor"
    sizes := [56, 0, 545152, 0, 0]
    slots := ["__repr__", "__call__", "__getattribute__", "__get__"]
    properties := ["__doc__", "__qualname__", "__text_signature__"]
    fields := ["__objclass__", "__name__"] },
  { name := "types.GenericAlias"
    sizes := [64, 0, 548096, 0, 40]
    doc := some ("Represent a PEP 585 generic type\n\n" ++
      "E.g. for t = list[int], t.__origin__ is list and t.__args__ is (int,).")
    slots :=
      ["__repr__", "__hash__", "__call__", "__getattribute__", "__lt__", "__le__", "__eq__",
       "__ne__", "__gt__", "__ge__", "__iter__", "__or__", "__ror__", "__getitem__"]
    methods :=
      ["__mro_entries__", "__instancecheck__", "__subclasscheck__", "__reduce__", "__dir__"]
    properties := ["__parameters__", "__typing_unpacked_tuple_args__"]
    fields := ["__origin__", "__args__", "__unpacked__"]
    statics := ["__new__"] }]

def find? (name : String) : Option TypeInfo := all.find? (·.name == name)

def member? (t : TypeInfo) (name : String) : Option MemberForm :=
  if t.slots.contains name then some .slot
  else if t.methods.contains name then some .method
  else if t.properties.contains name then some .property
  else if t.fields.contains name then some .field
  else if t.classMethods.contains name then some .classMethod
  else if t.statics.contains name then some .static
  else if t.absent.contains name then some .absent
  else none

def lineage (typeName : String) : List String :=
  typeName :: ((find? typeName).map (·.bases)).getD []

def inherited? (typeName name : String) : Option (MemberForm × String) :=
  (lineage typeName).findSome? fun owner => do
    return (← (← find? owner).member? name, owner)

def shortName (typeName : String) : String :=
  String.ofList (typeName.toList.reverse.takeWhile (· ≠ '.')).reverse

def moduleName (typeName : String) : String :=
  if typeName.toList.contains '.' then
    String.ofList (typeName.toList.takeWhile (· ≠ '.'))
  else "builtins"

end TypeInfo

end Inlay
