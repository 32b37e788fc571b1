import Inlay.Act
import Inlay.Tag.Scan

/-! Pages: texts whose tags are replaced by what a resolver makes of them. -/

namespace Inlay

structure Outcome where
  text : String
  error : Option String
  success : Bool
  deriving DecidableEq

/-- What turns tags into text; it may keep a state, and it may raise faults. -/
abbrev Resolver (τ : Type) := Tag → Act τ Outcome

namespace Page

structure Rendering where
  text : List Char
  failures : List String

def faultMessage (t : Tag) (f : Fault) : String :=
  "Error resolving tag " ++ Text.quoted (String.ofList t.print) ++ ": " ++ f.message

/-- A result that is no success counts as a failure if it gives a reason. -/
def failure? (o : Outcome) : Option String :=
  if o.success then none else o.error.filter (!·.isEmpty)

def replace {τ : Type} [Reports τ] (resolve : Resolver τ) (t : Tag) (s : τ) : Rendering × τ :=
  match resolve t s with
  | .ok o s => (⟨o.text.toList, (failure? o).toList⟩, s)
  | .error f s => (⟨[], [f.message]⟩, Reports.note (faultMessage t f) s)

def Rendering.append (r r' : Rendering) : Rendering :=
  ⟨r.text ++ r'.text, r.failures ++ r'.failures⟩

def renderPieces {τ : Type} [Reports τ] (resolve : Resolver τ) : List Piece → τ → Rendering × τ
  | [], s => (⟨[], []⟩, s)
  | .char c :: rest, s =>
    let (r, s) := renderPieces resolve rest s
    (Rendering.append ⟨[c], []⟩ r, s)
  | .tag t :: rest, s =>
    let (r, s) := replace resolve t s
    let (r', s) := renderPieces resolve rest s
    (r.append r', s)

def Rendering.outcome (r : Rendering) : Outcome :=
  ⟨String.ofList r.text, r.failures.getLast?, r.failures.isEmpty⟩

def render {τ : Type} [Reports τ] (resolve : Resolver τ) (cap : Nat) (text : String) (s : τ) :
    Outcome × τ :=
  let (r, s) := renderPieces resolve (Piece.scan cap text.toList) s
  (r.outcome, s)

/-- The cap on the length of tag paths. It is positive, and below what a repetition counts. -/
def cap? (n : Int) : Except Fault Nat :=
  if n ≤ 0 then .error .lengthCapNotPositive
  else if 4294967295 ≤ n then .error .lengthCapTooLarge
  else .ok n.toNat

end Page

end Inlay
