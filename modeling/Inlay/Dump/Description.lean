import Inlay.Dump
import Inlay.Handle

/-! The structured text of a value. An object that answers in its own way is described by the parts
that it says it has. -/

namespace Inlay

namespace Dump

structure Part where
  name : Option Value
  value : Value

namespace Part

/-- A pair is a value under a name. Where a usual value comes third, an equal value is left out, and
so are tuples of other lengths. -/
def read? : Value → Option Value
  | .tuple [name, v, usual] => if usual.equals v then none else some (.tuple [name, v])
  | .tuple [name, v] => some (.tuple [name, v])
  | .tuple [v] => some v
  | .tuple _ => none
  | v => some v

def ofValue : Value → Except Fault Part
  | .tuple [name, v] => .ok ⟨some name, v⟩
  | .tuple items => .error (.notPair items.length)
  | v => .ok ⟨none, v⟩

def label (p : Part) : Label := p.name.elim .none (⟨·, "="⟩)

end Part

variable {σ : Type}

/-- The dump of a value. An object that fails to say what its parts are has its literal alone. -/
def ofValue (host : Host σ) : Nat → Value → Act (World σ) Dump
  | 0, _ => throw .tooDeep
  | depth + 1, v =>
    ofShown (fun h => do
      match ← Handle.ownParts (Value.call host Value.callCap) h with
      | none =>
        Act.ofExcept h.checkClass
        return .leaf h.literalOrFault
      | some items =>
        Act.ofExcept h.readClass
        let parts ← (items.filterMap Part.read?).mapM fun item => do
          let p ← Act.ofExcept (Part.ofValue item)
          return (p.label, ← ofValue host depth p.value)
        return .ofParts (h.typeName ++ "(") ")" false parts) v.shown

end Dump

namespace Value

def dump {σ : Type} (host : Host σ) (v : Value) : Act (World σ) String := do
  Act.ofExcept (← Dump.ofValue host callCap v).text

end Value

end Inlay
