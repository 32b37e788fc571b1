import Inlay.Handle

/-! Lookups: what a key selects in a value. -/

namespace Inlay.Value

/-- The entry of a text key, or of the integer that the key's digits are. -/
def mappingEntry? (entries : List (Value × Value)) (key : String) :
    Except Fault (Option Value) := do
  match entry? (isText key) entries with
  | some v => return some v
  | none =>
    match ← index? key with
    | some n => return entry? (·.integral? = some (n : Int)) entries
    | none => return none

def element? (items : List Value) (key : String) : Except Fault (Option Value) := do
  match ← index? key with
  | some n => return items[n]?
  | none => return none

def rangeElement? (r : Range) (key : String) : Except Fault (Option Value) := do
  match ← index? key with
  | some n => return if n < (← rangeLength r) then some (.int (r.nth n)) else none
  | none => return none

def entryAt? (v : Value) (key : String) : Except Fault (Option Value) :=
  match v with
  | .mapping _ entries => present? <$> mappingEntry? entries key
  | .list items | .tuple items => present? <$> element? items key
  | .range r => rangeElement? r key
  | _ => .ok none

def lookup {σ : Type} (host : Host σ) (v : Value) (key : String) :
    Act (World σ) (Option Value) := do
  if (← Act.ofExcept v.classify) = .object then
    return present? (some (← v.ask host .property [.text key]))
  else Act.ofExcept (v.entryAt? key)

end Inlay.Value
