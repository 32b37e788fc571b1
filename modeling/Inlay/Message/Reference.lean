import Inlay.Message.Subject

/-! References: a value by its number or its name, and steps from it to attributes and items. -/

namespace Inlay.Message

inductive Numbering where
  | undecided
  | counted (next : Nat)
  | numbered

structure Values where
  positional : List Value
  named : Table Value

/-- The number that a text is. A long one is a fault, whatever comes after its digits. -/
def index? (cs : List Char) : Except Complaint (Option Nat) :=
  match Number.splitDigits cs with
  | ([], _) => .ok none
  | (digits, rest) =>
    if Range.countCap ≤ Number.ofDigits digits then .error .longNumber
    else .ok (if rest.isEmpty then some (Number.ofDigits digits) else none)

def isStep (c : Char) : Bool := c == '.' || c == '['

def follow (s : Subject) (cs : List Char) : Except Complaint Subject :=
  match cs with
  | [] => .ok s
  | '.' :: rest => do
    let name := rest.takeWhile (!isStep ·)
    if name.isEmpty then throw .emptyStep
    have : (rest.dropWhile (!isStep ·)).length < (('.' :: rest).length) :=
      Nat.lt_succ_of_le (List.dropWhile_sublist _).length_le
    follow (← s.attributeNamed (String.ofList name)) (rest.dropWhile (!isStep ·))
  | '[' :: rest => do
    let name := rest.takeWhile (· ≠ ']')
    match h : rest.dropWhile (· ≠ ']') with
    | [] => throw .openBracket
    | _ :: after =>
      have : after.length < ('[' :: rest).length := by
        have := (List.dropWhile_sublist (· ≠ ']') (l := rest)).length_le
        rw [h] at this
        simp only [List.length_cons] at this ⊢
        omega
      match ← index? name with
      | some n => follow (← s.item n) after
      | none =>
        if name.isEmpty then throw .emptyStep
        follow (← s.entry (String.ofList name)) after
  | _ => .error .textAfterBracket
  termination_by cs.length
  decreasing_by all_goals exact this

def positional (values : Values) (n : Nat) : Except Complaint Subject :=
  match values.positional[n]? with
  | some v => .ok (.value v)
  | none => .error (.noPositional n)

def start (values : Values) (numbering : Numbering) (name : List Char) :
    Except Complaint (Subject × Numbering) := do
  if name.isEmpty then
    match numbering with
    | .numbered => throw .countedAfterNumbered
    | .undecided => return (← positional values 0, .counted 1)
    | .counted n => return (← positional values n, .counted (n + 1))
  else
    match ← index? name with
    | some n =>
      if numbering matches .counted _ then throw .numberedAfterCounted
      return (← positional values n, .numbered)
    | none =>
      match Table.get? values.named (String.ofList name) with
      | some v => return (.value v, numbering)
      | none => throw (.noKey (Text.quoted (String.ofList name)))

def resolve (values : Values) (numbering : Numbering) (reference : List Char) :
    Except Complaint (Subject × Numbering) := do
  let (s, numbering) ← start values numbering (reference.takeWhile (!isStep ·))
  return (← follow s (reference.dropWhile (!isStep ·)), numbering)

end Inlay.Message
