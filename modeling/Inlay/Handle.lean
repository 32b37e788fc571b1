import Inlay.Value.Attribute
import Inlay.Value.Content
import Inlay.Value.Standard
import Inlay.World

/-! Handles: the only objects whose attributes a tag may reach, and those only as far as they are
exposed. Every question to a handle goes by one of its attributes, so an object may answer in its
own way. -/

namespace Inlay

abbrev Caller (τ : Type) := Value → List Value → Act τ Value

namespace Handle

variable {τ : Type} (call : Caller τ)

def ask (v : Value) (m : Member) (arguments : List Value) : Act τ Value := do
  call (← Act.ofExcept (v.read m.name)) arguments

def property (owner name : Value) : Act τ Value := do
  let names ← Act.ofExcept (owner.read Face.propertiesName)
  if ← Act.ofExcept (names.holds name) then
    let target ← ask call owner .target []
    let name ← Act.ofExcept name.attributeName
    return (← Act.ofExcept (target.exposed? name)).getD .missing
  else return .missing

def hasMethod (owner name : Value) : Act τ Value := do
  let names ← Act.ofExcept (owner.read Face.methodsName)
  if ← Act.ofExcept (names.holds name) then
    let target ← ask call owner .target []
    let name ← Act.ofExcept name.attributeName
    return .bool ((← Act.ofExcept (target.read? name)).any Value.isCallable)
  else return .bool false

def placedText (name : Value) : Option Value → Except Fault String
  | none | some .null | some (.text "builtins") => return (← name.display) ++ "()"
  | some place => return (← place.display) ++ "." ++ (← name.display) ++ "()"

def namedText (v : Value) : Except Fault String := do
  match ← v.read? "__qualname__" with
  | none => v.display
  | some name => placedText name (← v.read? "__module__")

def calleeText : Value → Except Fault String
  | .method owner m =>
    let name := Value.memberText owner m ++ "()"
    match m with
    | .standard member =>
      .ok (if m.typeName = "method-wrapper" then "object." ++ member ++ "()" else name)
    | .innate typeName _ => .ok (if typeName = "type" then owner.typeName ++ "()" else name)
    | .invocation => .ok (owner.moduleName ++ "." ++ name)
    | _ => .ok ("autoparse.models.value." ++ name)
  | .callable (.recased up _) => .ok (if up then "str.upper()" else "str.lower()")
  | v => namedText v

def spread (callee arguments : Value) : Except Fault (List Value) :=
  match arguments.raised? "__getitem__", arguments.elements? with
  | none, some items => items
  | some _, some items => do
    arguments.checkExpected
    items
  | _, none => do
    if (arguments.raised? "__iter__").isSome then throw (.notIterable arguments.typeName)
    throw (.notSpread (← calleeText callee) arguments.typeName)

def callMethod (owner name arguments : Value) : Act τ Value := do
  let known ← ask call owner .hasMethod [name]
  if ← Act.ofExcept known.truth then
    let target ← ask call owner .target []
    let callee ← Act.ofExcept (do target.read (← name.attributeName))
    call callee (← Act.ofExcept (spread callee arguments))
  else throw (.notExposed (← Act.ofExcept name.formatted))

/-- The names that a value lists. No number is a name, so a range is not looked at beyond its first
number. -/
def names : Value → Except Fault (List Value)
  | .range r => .ok (if r.length = 0 then [] else [.int r.start])
  | v => v.elements

def exports (owner : Value) : Act τ Value := do
  let names ← Act.ofExcept (do names (← owner.read Face.propertiesName))
  let found ← names.mapM fun name => do
    let target ← ask call owner .target []
    let name ← Act.ofExcept name.attributeName
    return (name, ← Act.ofExcept (target.exposed? name))
  return .ofTable (Table.ofList (found.filterMap fun (name, v) => v.map (name, ·)))

/-- A handle over itself is countable if it reports a length; one over another value if that is a
sequence or a mapping. -/
def countable (owner : Value) : Act τ Value := do
  let target ← ask call owner .target []
  if owner.isOwnTarget then
    return .bool (← Act.ofExcept (owner.read? Member.length.name)).isSome
  else
    let kind ← Act.ofExcept target.classify
    return .bool (kind = .sequence || kind = .mapping)

def items (exported : Value) : Act τ (List Value) := do
  match exported with
  | .mapping _ entries => return entries.map fun (key, v) => .tuple [key, v]
  | v =>
    let pairs ← call (← Act.ofExcept (v.read "items")) []
    Act.ofExcept pairs.elements

def readParts (owner : Value) : Act τ (List Value) :=
  Act.mapFault Fault.ofReading do items call (← ask call owner .exports [])

def ownParts (owner : Value) : Act τ (Option (List Value)) := do
  match ← Act.observe (do
      Act.ofExcept owner.checkClass
      ask call owner .parts []) with
  | .error _ | .ok .null => return none
  | .ok (.parts v) => return some (← readParts call v)
  | .ok v => return some (← Act.ofExcept v.elements)

def arityFault (owner : Value) (m : Member) (given : Nat) : Fault :=
  let expected := m.parameters
  if given < expected.length then
    .lackingArguments (Value.memberText owner m) (expected.drop given)
  else .surplusArguments (Value.memberText owner m) (expected.length + 1) (given + 1)

def target : Value → Value
  | .wrapped _ _ v => v
  | v => v

def answer [Changes τ] (owner : Value) : Member → List Value → Act τ Value
  | .target, [] => return target owner
  | .property, [name] => property call owner name
  | .hasMethod, [name] => hasMethod call owner name
  | .callMethod, [name, arguments] => callMethod call owner name arguments
  | .exports, [] => exports call owner
  | .countable, [] => countable call owner
  | .count, [] => do
    let target ← ask call owner .target []
    return .int (← Act.ofExcept target.size)
  | .parts, [] => return .parts owner
  | .length, [] =>
    return match owner with
    | .object _ _ _ (some n) => .int n
    | _ => .null
  | .invocation, arguments => call owner arguments
  | .standard name, arguments => owner.standardAnswer name arguments
  | .innate _ name, arguments =>
    call (.callable (.hosted Callable.innate name)) (owner :: .text name :: arguments)
  | m, arguments => throw (arityFault owner m arguments.length)

end Handle

namespace Value

variable {σ : Type}

/-- How deep calls of members nest. -/
def callCap : Nat := 1000

def call (host : Host σ) : Nat → Caller (World σ)
  | _, .callable c, arguments => c.invoke host arguments
  | 0, .method .., _ => throw .tooDeep
  | depth + 1, .method owner m, arguments => Handle.answer (call host depth) owner m arguments
  | _, v, _ => throw v.callFault

def ask (host : Host σ) (v : Value) (m : Member) (arguments : List Value) : Act (World σ) Value :=
  Handle.ask (call host callCap) v m arguments

end Value

end Inlay
