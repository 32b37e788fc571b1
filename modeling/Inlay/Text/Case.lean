import Inlay.Text.CaseTable
import Inlay.Text.Runs

/-! Upper and lower case of texts, by the full mappings: a letter may become several. -/

namespace Inlay.Text

def mapByRuns (n : Nat) : List (Nat × Nat × Nat × Int) → Option Nat
  | [] => none
  | (first, last, stride, offset) :: rest =>
    if first ≤ n && n ≤ last && (n - first) % stride == 0 then some (n + offset).toNat
    else mapByRuns n rest

def mapChar (expansions : List (Nat × List Nat)) (runs : List (Nat × Nat × Nat × Int))
    (c : Char) : List Char :=
  match expansions.find? (·.1 == c.toNat) with
  | some (_, codes) => codes.map Char.ofNat
  | none => [((mapByRuns c.toNat runs).map Char.ofNat).getD c]

def upper (s : String) : String :=
  String.ofList (s.toList.flatMap (mapChar upperExpansions upperRuns))

def nextIsCased : List Char → Bool
  | [] => false
  | c :: rest =>
    if inRuns c.toNat caseIgnorableRuns then nextIsCased rest else inRuns c.toNat casedRuns

/-- Lower case from left to right, given the characters before, the nearest first. A capital sigma
that ends a word becomes a final one. -/
def lowerAfter (before : List Char) : List Char → List Char
  | [] => []
  | c :: rest =>
    (if c == 'Σ' then [if nextIsCased before && !nextIsCased rest then 'ς' else 'σ']
      else mapChar lowerExpansions lowerRuns c) ++ lowerAfter (c :: before) rest

def lower (s : String) : String := String.ofList (lowerAfter [] s.toList)

end Inlay.Text
