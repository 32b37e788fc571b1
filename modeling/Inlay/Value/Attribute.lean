import Inlay.Value.Innate

/-! Attributes: what can be read of a value by a name. Handles alone let tags read them. What a
value has of its own comes first, then what its class has for it; where there is nothing, the class
may raise a fault of its own. -/

namespace Inlay

namespace Attribute

def read : Attribute → Except Fault Value
  | .value v => .ok v
  | .raises kind message => .error (.ofHost kind message)

def value? : Attribute → Option Value
  | .value v => some v
  | .raises .. => none

end Attribute

namespace Value

def ofTexts (ss : List String) : Value := .tuple (ss.map .text)

end Value

namespace Face

def propertiesName : String := "properties"

def methodsName : String := "methods"

def lists (face : Face) : Table Value :=
  [(propertiesName, .ofTexts face.properties), (methodsName, .ofTexts face.methods)]

def exports {α : Type} (face : Face) (read : String → Except Fault (Option α)) :
    Except Fault (Table α) := do
  let found ← face.properties.mapM fun name => return (name, ← read name)
  return Table.ofList (found.filterMap fun (name, a) => a.map (name, ·))

end Face

namespace Value

def wrappedName : String := "obj"

def own : Value → Table Attribute
  | .plain _ _ own | .object _ _ own _ => own
  | .wrapped _ face target =>
    ((wrappedName, target) :: face.lists).map fun (name, v) => (name, .value v)
  | _ => []

/-- What an object raises in place of a member of its class. A raising attribute belongs to the
class of its object, a value to the object alone. -/
def raised? (v : Value) (name : String) : Option Fault :=
  match v with
  | .object _ _ own _ | .plain _ _ own =>
    match Table.get? own name with
    | some (.raises kind message) => some (.ofHost kind message)
    | _ => none
  | _ => none

def isHosted : Value → Bool
  | .object .. | .wrapped .. | .plain .. | .callable (.hosted ..) | .missing => true
  | _ => false

def members : Value → List Member
  | .object _ _ _ (some _) => Member.common ++ [.length]
  | .object _ _ _ none | .wrapped .. => Member.common
  | .callable (.hosted ..) => [.invocation]
  | _ => []

def moduleName : Value → String
  | .wrapped .. | .missing => "autoparse.models.value"
  | _ => "__main__"

def documentation : Value → Value
  | .wrapped .. =>
    .text ("Wrap an arbitrary object with explicit allow-lists.\n\n    Example:\n" ++
      "        HostObject(user, properties=(\"name\", \"email\"), methods=(\"greet\",))\n    ")
  | .missing => .text "Marker for a property an object does not expose."
  | _ => .null

def holdingsName : String := "__dict__"

def holdings (v : Value) : Table Value :=
  v.own.filterMap fun (name, a) => a.value?.map (name, ·)

/-- Whether objects of the class of a value can be hashed: not if the class fails to say how, or
says only when they are equal. -/
def isHashed (v : Value) : Bool :=
  (v.raised? "__hash__").isNone && (v.raised? "__eq__").isNone

def annotationsName : String := "__annotations__"

def annotations : Table Value :=
  [Face.propertiesName, Face.methodsName].map fun name =>
    (name, .plain 0 "typing.ClassVar[tuple[str, ...]]" [])

def standard? (v : Value) (name : String) : Option Value :=
  if name = holdingsName then some (.ofTable v.holdings)
  else if name = annotationsName && v.kind == .object then some (.ofTable annotations)
  else if name = "__hash__" && !v.isHashed then some .null
  else match name with
    | "__doc__" => some v.documentation
    | "__module__" => some (.text v.moduleName)
    | "__weakref__" => some .null
    | name => (Member.standardForm? name).map fun _ => .method v (.standard name)

def inherited? (v : Value) (name : String) : Option Value :=
  match v with
  | .object id face own size =>
    Table.get? face.lists name <|> memberNamed? (.object id face own size)
  | v => memberNamed? v
where
  memberNamed? (v : Value) : Option Value :=
    (v.members.find? (·.name = name)).map (.method v) <|>
      if v.isHosted then v.standard? name else v.innate? name

def readPlainly (v : Value) (name : String) : Except Fault Value :=
  match Table.get? v.own name, v.inherited? name with
  | some a, _ => a.read
  | none, some w => .ok w
  | none, none => .error (.noAttribute v.typeName name)

def readerName : String := "__getattribute__"

def fallbackName : String := "__getattr__"

/-- What comes of a reading, where the class of an object may raise a fault for what is not
there. -/
def orFallback (v : Value) : Except Fault Value → Except Fault Value
  | .ok w => .ok w
  | .error f => .error (if f.saysAbsent then (v.raised? fallbackName).getD f else f)

def read (v : Value) (name : String) : Except Fault Value :=
  v.orFallback (match v.raised? readerName with
    | some f => .error f
    | none => v.readPlainly name)

def read? (v : Value) (name : String) : Except Fault (Option Value) :=
  match v.read name with
  | .ok w => .ok (some w)
  | .error f => if f.saysAbsent then .ok none else .error f

def className : String := "__class__"

def readClass (v : Value) : Except Fault Unit :=
  match v with
  | .object .. | .plain .. => (fun _ => ()) <$> v.read className
  | _ => .ok ()

def checkClass (v : Value) : Except Fault Unit :=
  match v.readClass with
  | .ok () => .ok ()
  | .error f => if f.saysAbsent then .ok () else .error f

def classify (v : Value) : Except Fault Kind :=
  match v with
  | .object id face own size => (fun _ => .object) <$> (Value.object id face own size).checkClass
  | v => (fun _ => v.kind) <$> v.readClass

def present? : Option Value → Option Value
  | some .missing => none
  | found => found

def exposed? (target : Value) (name : String) : Except Fault (Option Value) :=
  present? <$> target.read? name

def attributeName : Value → Except Fault String
  | .text s => .ok s
  | v => .error (.nameNotText v.typeName)

def isOwnTarget : Value → Bool
  | .object _ _ own _ => !Table.contains own Member.target.name
  | _ => false

def callName : String := "__call__"

def isCallable : Value → Bool
  | .callable _ | .method .. => true
  | v => (v.raised? callName).isSome

def callFault (v : Value) : Fault := (v.raised? callName).getD (.notCallable v.typeName)

end Value

end Inlay
