import Inlay.Fault

/-! Tag paths: cut into segments at delimiters outside parentheses. -/

namespace Inlay.Path

/-- The nesting after a character. A closing parenthesis alone counts for nothing. -/
def nest (depth : Nat) (c : Char) : Nat :=
  if c = '(' then depth + 1 else if c = ')' then depth - 1 else depth

def exceeds (cap : Int) (depth : Nat) : List Char → Bool
  | [] => false
  | c :: rest =>
    (c == '(' && decide (cap < (nest depth c : Int))) || exceeds cap (nest depth c) rest

def extend (c : Char) : List (List Char) → List (List Char)
  | [] => [[c]]
  | piece :: pieces => (c :: piece) :: pieces

def cut (delimiter : Option Char) (depth : Nat) : List Char → List (List Char)
  | [] => [[]]
  | c :: rest =>
    if depth = 0 ∧ delimiter = some c ∧ c ≠ '(' ∧ c ≠ ')' then [] :: cut delimiter 0 rest
    else extend c (cut delimiter (nest depth c) rest)

def dropFinalEmpty (pieces : List (List Char)) : List (List Char) :=
  if pieces.getLast? = some [] then pieces.dropLast else pieces

/-- The segments of a path. A final segment that is empty is dropped. -/
def split (delimiter : Option Char) (cap : Option Int) (text : String) :
    Except Fault (List String) :=
  let segments := (dropFinalEmpty (cut delimiter 0 text.toList)).map String.ofList
  match cap with
  | some cap => if exceeds cap 0 text.toList then .error (.nesting cap text) else .ok segments
  | none => .ok segments

end Inlay.Path
