import Inlay.Act
import Inlay.Value.Change
import Inlay.Value.Equality
import Inlay.Value.Literal

/-! Standard members: what those members answer that all objects of the host have, and what they
change. Hashes and sizes in memory are not known, so they are always the same. -/

namespace Inlay.Value

/-- What a comparison answers that leaves the matter to the other side. -/
def undecided : Value := .plain 0 "NotImplemented" []

def isComparison (name : String) : Bool :=
  ["__lt__", "__le__", "__eq__", "__ne__", "__gt__", "__ge__"].contains name

def operandCount (name : String) : Nat :=
  if ["__repr__", "__str__", "__hash__"].contains name then 0
  else if name = "__setattr__" then 2
  else 1

def slotAnswer (v : Value) (name : String) (operands : List Value) : Except Fault Value :=
  match name, operands with
  | "__init__", [] => .ok .null
  | "__init__", _ => .error (.preparedWithArguments v.typeName)
  | "__repr__", [] => .text <$> v.literal
  | "__str__", [] => .text <$> v.display
  | "__hash__", [] => .ok (.int 0)
  | "__getattribute__", [key] => do v.readPlainly (← key.attributeName)
  | "__eq__", [w] => .ok (if v.equals w then .bool true else undecided)
  | "__ne__", [w] =>
    .ok (if (v.raised? "__eq__").isNone && v.equals w then .bool false else undecided)
  | name, operands =>
    if isComparison name && operands.length == 1 then .ok undecided
    else .error (.wrongOperands (operandCount name) operands.length)

def laidOut (v : Value) : Value → Except Fault Value
  | .text s => if s.isEmpty then .text <$> v.display else .error (.noLayout v.typeName)
  | layout => .error (.layoutNotText layout.typeName)

def classNames : Value → List String
  | .object _ _ own size =>
    [Face.propertiesName, Face.methodsName] ++ raisingNames own ++
      (size.map fun _ => Member.length.name).toList ++ moduleNames
  | .wrapped .. => moduleNames ++ ["__init__", Member.target.name]
  | .plain _ _ own => raisingNames own ++ moduleNames
  | _ => moduleNames
where
  raisingNames (own : Table Attribute) : List String :=
    (own.filter (·.2.value?.isNone)).map (·.1)
  moduleNames : List String := ["__module__", "__doc__"]

def standardNames : List String :=
  TypeInfo.object.statics ++ TypeInfo.object.slots ++
    ["__reduce_ex__", "__reduce__", "__getstate__", "__subclasshook__", "__init_subclass__",
     "__format__", "__sizeof__", "__dir__", "__class__"]

def attributeNames (v : Value) : List String :=
  let names := v.holdings.map (·.1) ++ v.classNames ++
    (if v.kind = .object then [annotationsName] else []) ++
    v.members.map (·.name) ++ [holdingsName, referenceName] ++ standardNames
  (Table.ofList (names.map fun name => (name, ()))).map (·.1)

def state (v : Value) : Value := if v.holdings.isEmpty then .null else .ofTable v.holdings

/-- How an object is made again: by a function, out of its class and its state. From the second
protocol on the function is another one. -/
def reduction (v : Value) (protocol : Int) : Value :=
  let made (name : String) : Value := .plain 0 ("<function " ++ name ++ ">") []
  let ownClass := Value.method v (.standard className)
  if 2 ≤ protocol then .tuple [made "__newobj__", .tuple [ownClass], v.state, .null, .null]
  else
    let arguments := Value.tuple [ownClass, .plain 0 "<class 'object'>" [], .null]
    .tuple ([made "_reconstructor", arguments] ++ if v.holdings.isEmpty then [] else [v.state])

def reductionFault? (v : Value) (protocol : Int) : Option Fault :=
  if 2 ≤ protocol then
    ["__getnewargs_ex__", "__getnewargs__", "__getstate__"].findSome? v.raised?
  else v.raised? className <|> (v.raised? "__getstate__").filter (!·.saysAbsent)

def reduce (v : Value) (protocol : Int) : Except Fault Value :=
  match v.reductionFault? protocol with
  | some f => .error f
  | none => .ok (v.reduction protocol)

def protocol (v : Value) : Except Fault Int :=
  match v.raised? "__index__", v with
  | some f, _ => .error f
  | none, .bool b => .ok (if b then 1 else 0)
  | none, .int n => if -0x80000000 ≤ n ∧ n < 0x80000000 then .ok n else .error .overlongProtocol
  | none, v => .error (.notIndex v.typeName)

def reduceEx (v number : Value) : Except Fault Value := do
  let n ← number.protocol
  match (v.raised? "__reduce__").filter (!·.saysAbsent) with
  | some f => throw f
  | none => v.reduce n

def methodAnswer (v : Value) (name : String) (arguments : List Value) : Except Fault Value :=
  let method := v.typeName ++ "." ++ name
  match name, arguments with
  | "__format__", [layout] => v.laidOut layout
  | "__reduce_ex__", [number] => v.reduceEx number
  | "__format__", _ | "__reduce_ex__", _ => .error (.notOneArgument method arguments.length)
  | "__reduce__", [] => v.reduce 0
  | "__getstate__", [] => .ok v.state
  | "__sizeof__", [] => .ok (.int 24)
  | "__dir__", [] => .ok (.list (v.attributeNames.map .text))
  | _, [] => .ok .null
  | _, _ => .error (.needlessArguments method arguments.length)

def newOfClass (v : Value) (arguments : List Value) : Except Fault Value :=
  match v, arguments with
  | .object _ face own size, [] => .ok (.object 0 face (holding own []) size)
  | .wrapped _ face _, [target] => .ok (.wrapped 0 ⟨face.className, [], []⟩ target)
  | v, _ => .error (.madeOfArguments v.typeName)

def fixedAnswer (v : Value) (name : String) (arguments : List Value) : Except Fault Value :=
  match Member.standardForm? name, name with
  | some .slot, _ => v.slotAnswer name arguments
  | some .property, _ => v.newOfClass arguments
  | some .static, _ => .error (.noClass (arguments.head?.map typeName))
  | _, "__subclasshook__" => .ok undecided
  | _, _ => v.methodAnswer name arguments

variable {τ : Type} [Changes τ]

def hold (v : Value) (holdings : Except Fault (Table Value)) : Act τ Value := do
  let holdings ← Act.ofExcept holdings
  modify (Changes.change ⟨v.id, holdings⟩)
  return .null

def standardAnswer (v : Value) (name : String) (arguments : List Value) : Act τ Value :=
  match name, arguments with
  | "__setattr__", [key, w] => v.hold do v.given (← key.attributeName) w
  | "__delattr__", [key] => v.hold do v.withdrawn (← key.attributeName)
  | name, arguments => Act.ofExcept (v.fixedAnswer name arguments)

end Inlay.Value
