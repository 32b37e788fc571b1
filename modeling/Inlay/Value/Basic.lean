import Inlay.Number.Literal
import Inlay.Table
import Inlay.TypeInfo
import Inlay.Value.Range

/-! The values that tags resolve to. -/

namespace Inlay

inductive Callable where
  | hosted (id : Nat) (label : String)
  | recased (upper : Bool) (text : String)
  deriving DecidableEq

/-- The number by which a host is asked what the innate members of values do. It is told the value
and the name of the member before the arguments. -/
def Callable.innate : Nat := 0x10000000000000000

inductive MappingForm where
  | plain
  | readOnly
  | custom
  deriving DecidableEq

structure Face where
  className : String
  properties : List String
  methods : List String
  deriving DecidableEq

inductive Member where
  | target
  | property
  | hasMethod
  | callMethod
  | exports
  | countable
  | count
  | parts
  | length
  | invocation
  | standard (name : String)
  | innate (typeName name : String)
  deriving DecidableEq

namespace Member

def name : Member → String
  | .target => "_target"
  | .property => "property_get"
  | .hasMethod => "method_has"
  | .callMethod => "method_call"
  | .exports => "export"
  | .countable => "countable"
  | .count => "count"
  | .parts => "__rich_repr__"
  | .length => "__len__"
  | .invocation => "__call__"
  | .standard name | .innate _ name => name

def standardForm? (name : String) : Option MemberForm := TypeInfo.object.member? name

def typeName : Member → String
  | .standard name =>
    match standardForm? name with
    | some .property => "type"
    | some .slot => "method-wrapper"
    | _ => "builtin_function_or_method"
  | .innate typeName _ => typeName
  | _ => "method"

def parameters : Member → List String
  | .property | .hasMethod => ["name"]
  | .callMethod => ["name", "args"]
  | _ => []

def common : List Member :=
  [.target, .property, .hasMethod, .callMethod, .exports, .countable, .count, .parts]

end Member

mutual

/-- The values of tags. Each object of the host has a number of its own; those that nothing else can
refer to have the number zero. -/
inductive Value where
  | null
  | bool (b : Bool)
  | int (n : Int)
  | float (x : Binary64)
  | text (s : String)
  | list (items : List Value)
  | tuple (items : List Value)
  | range (r : Range)
  | mapping (form : MappingForm) (entries : List (Value × Value))
  | bytes (mutable : Bool) (octets : List UInt8)
  /-- The marker of an absent entry; as an entry it counts as absent. -/
  | missing
  | callable (c : Callable)
  /-- An object of the host that is not a handle: tags see its text alone. -/
  | plain (id : Nat) (shown : String) (attributes : List (String × Attribute))
  | object (id : Nat) (face : Face) (attributes : List (String × Attribute)) (size : Option Int)
  | wrapped (id : Nat) (face : Face) (target : Value)
  | method (owner : Value) (m : Member)
  | parts (owner : Value)

inductive Attribute where
  | value (v : Value)
  | raises (kind message : String)

end

inductive Kind where
  | null
  | bool
  | number
  | string
  | sequence
  | mapping
  | object
  | other
  deriving DecidableEq

def Kind.name : Kind → String
  | .null => "null"
  | .bool => "bool"
  | .number => "number"
  | .string => "string"
  | .sequence => "sequence"
  | .mapping => "mapping"
  | .object => "object"
  | .other => "opaque"

namespace Value

def kind : Value → Kind
  | .null => .null
  | .bool _ => .bool
  | .int _ | .float _ => .number
  | .text _ => .string
  | .list _ | .tuple _ | .range _ => .sequence
  | .mapping .. => .mapping
  | .object .. | .wrapped .. => .object
  | .bytes .. | .missing | .callable _ | .plain .. | .method .. | .parts _ => .other

def typeName : Value → String
  | .null => "NoneType"
  | .bool _ => "bool"
  | .int _ => "int"
  | .float _ => "float"
  | .text _ => "str"
  | .list _ => "list"
  | .tuple _ => "tuple"
  | .range _ => "range"
  | .mapping .plain _ => "dict"
  | .mapping .readOnly _ => "mappingproxy"
  | .mapping .custom _ => "UserDict"
  | .bytes false _ => "bytes"
  | .bytes true _ => "bytearray"
  | .missing => "_Missing"
  | .callable (.hosted ..) => "Fn"
  | .callable (.recased ..) => "builtin_function_or_method"
  | .plain .. => "Plain"
  | .object _ face .. | .wrapped _ face _ => face.className
  | .method _ m => m.typeName
  | .parts _ => "generator"

def ofNumber : Number → Value
  | .int n => .int n
  | .float x => .float x

def ofTable (t : Table Value) : Value := .mapping .plain (t.map fun (name, v) => (.text name, v))

def integral? : Value → Option Int
  | .int n => some n
  | .bool b => some (if b then 1 else 0)
  | .float x => x.toInt?
  | _ => none

def entry? (p : Value → Bool) : List (Value × Value) → Option Value
  | [] => none
  | (key, v) :: rest => if p key then some v else entry? p rest

def isText (s : String) : Value → Bool
  | .text t => t == s
  | _ => false

def index? (key : String) : Except Fault (Option Nat) :=
  match Text.digits? key.toList with
  | some digits => some <$> Number.readNat digits
  | none => .ok none

def rangeLength (r : Range) : Except Fault Nat :=
  if r.length < Range.countCap then .ok r.length else .error .overlongRange

end Value

end Inlay
