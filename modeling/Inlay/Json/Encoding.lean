import Inlay.Handle
import Inlay.Json.Writer

/-! The JSON text of a value. -/

namespace Inlay.Json

variable {σ : Type}

def askExports (host : Host σ) (report : Report) (within : List Nat) (h : Value) :
    Act (World σ) Value := do
  Act.ofExcept (checkForm report h)
  if h.isAmong within then throw .circular
  else if h.kind ≠ .object then
    Act.ofExcept h.readClass
    throw (.notEncodable h.typeName)
  else h.ask host .exports []

/-- The document that a value is encoded as. An object that has to be asked is encoded as what it
exports. Each question takes room, so of questions too there are only so many within one another. -/
def ofValue (host : Host σ) (report : Report) : List Nat → Nat → Nat → Value → Act (World σ) Json
  | _, 0, _, _ => throw .tooDeep
  | within, depth + 1, room, v =>
    ofShown report (fun room h => do
      let exported ← Act.mapFault report.ofReading (askExports host report within h)
      descend report.detour room fun room =>
        ofValue host report (h.id :: within) depth room exported) room v.shown

/-- How deep lists may nest. -/
def nestingCap : Nat := 993

/-- The JSON text of a value: in one line, or indented by a number of columns. The room is the
number of levels that what is going on around it leaves to it. -/
def encode (host : Host σ) (room : Nat) (indent : Option Int) (v : Value) :
    Act (World σ) String := do
  Act.ofExcept v.checkClass
  match indent with
  | none => return toText .compact (← ofValue host .silent [] (room + 1) room v)
  | some width => return toText (.indented width.toNat) (← ofValue host .shown [] (room + 1) room v)

end Inlay.Json
