import Inlay.Value.Basic

/-! Innate members: what values that are no objects of the host have by their types. What the
methods among them do is a matter of the host. -/

namespace Inlay.Value

def customMethods : List String :=
  ["__init__", "__len__", "__getitem__", "__setitem__", "__delitem__", "__iter__", "__contains__",
   "__repr__", "__or__", "__ror__", "__ior__", "__copy__", "copy", "fromkeys", "pop", "popitem",
   "clear", "update", "setdefault", "get", "keys", "items", "values", "__eq__", "__class_getitem__",
   "__subclasshook__"]

def customConstants : Table Value :=
  [("__module__", .text "collections"), ("__doc__", .null), ("__weakref__", .null),
   ("__hash__", .null), ("__reversed__", .null), ("__slots__", .tuple []),
   ("__abstractmethods__", .plain 0 "frozenset()" []),
   ("_abc_impl", .plain 0 "<_abc._abc_data object>" []),
   ("_MutableMapping__marker", .plain 0 "<object object>" [])]

def customData (entries : List (Value × Value)) : Table Value :=
  let data := Value.mapping .plain entries
  ("data", data) :: ("__dict__", .ofTable [("data", data)]) :: customConstants

def integerData (n : Int) : Table Value :=
  [("real", .int n), ("imag", .int 0), ("numerator", .int n), ("denominator", .int 1)]

def innateData : Value → Table Value
  | .int n => integerData n
  | .bool b => integerData (if b then 1 else 0)
  | .float x => [("real", .float x), ("imag", .float (.zero false))]
  | .range r => [("start", .int r.start), ("stop", .int r.stop), ("step", .int r.step)]
  | .mapping .custom entries => customData entries
  | _ => []

def boundType? (typeName name : String) : Option String :=
  if typeName = "UserDict" && customMethods.contains name then some "method"
  else match TypeInfo.inherited? typeName name <|>
      (TypeInfo.object.member? name).map (·, TypeInfo.object.name) with
    | some (.slot, _) => some "method-wrapper"
    | some (.method, _) | some (.classMethod, _) | some (.static, _) =>
      some "builtin_function_or_method"
    | some (.property, _) => some "type"
    | some (.field, _) | some (.absent, _) | none => none

def isElementary : Value → Bool
  | .null | .bool _ | .int _ | .float _ | .text _ | .list _ | .tuple _ | .range _ | .mapping ..
  | .bytes .. => true
  | _ => false

/-- The documentation of a type, and what a type keeps from its values. -/
def innateText? (typeName name : String) : Option Value :=
  if name = "__doc__" then
    some ((((TypeInfo.find? typeName).bind (·.doc)).map .text).getD .null)
  else match TypeInfo.inherited? typeName name with
    | some (.absent, _) => some .null
    | _ => none

def recased? : Value → String → Option Value
  | .text s, "upper" => some (.callable (.recased true s))
  | .text s, "lower" => some (.callable (.recased false s))
  | _, _ => none

def innate? (v : Value) (name : String) : Option Value :=
  if v.isElementary then
    v.recased? name <|> Table.get? v.innateData name <|> innateText? v.typeName name <|>
      (boundType? v.typeName name).map fun t => .method v (.innate t name)
  else none

end Inlay.Value
