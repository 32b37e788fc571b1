import Inlay.Text.Blank

/-! Settings: read from environment variables, whose names count in any letter case. -/

namespace Inlay

structure Settings where
  quiet : Bool
  maxTagLength : Nat
  maxDepth : Nat
  jsonIndent : Nat
  deriving DecidableEq

namespace Settings

def standard : Settings := ⟨false, 4096, 32, 4⟩

inductive Problem where
  | boolean
  | integer
  | integerSize
  | notPositive
  | negative
  deriving DecidableEq

def Problem.name : Problem → String
  | .boolean => "bool_parsing"
  | .integer => "int_parsing"
  | .integerSize => "int_parsing_size"
  | .notPositive => "greater_than"
  | .negative => "greater_than_equal"

def valueOf? (environment : List (String × String)) (name : String) : Option String :=
  (environment.reverse.find? fun entry =>
    entry.1.map Char.toLower == ("AUTOPARSE_" ++ name).map Char.toLower).map (·.2)

def readBool (s : String) : Except Problem Bool :=
  let word := s.map Char.toLower
  if word ∈ ["true", "t", "yes", "y", "on", "1"] then .ok true
  else if word ∈ ["false", "f", "no", "n", "off", "0"] then .ok false
  else .error .boolean

def isDigit (c : Char) : Bool := '0' ≤ c && c ≤ '9'

/-- The number after zeros: they do not count, nor do underscores among them. Of zeros alone the
last character is left, and of zeros before a point the character before it. -/
def afterZeros (last : Char) : List Char → Option (List Char)
  | [] => some [last]
  | c :: rest =>
    if c = '0' ∨ c = '_' then afterZeros c rest
    else if isDigit c ∨ c = '-' then some (c :: rest)
    else if c = '.' then some (last :: c :: rest)
    else none

def dropLeadingZeros : List Char → Option (List Char)
  | [] => none
  | c :: rest =>
    if c = '0' then afterZeros c rest else if isDigit c then some (c :: rest) else none

def dropZeroFraction (cs : List Char) : List Char :=
  match cs.dropWhile (· ≠ '.') with
  | '.' :: '0' :: rest => if rest.all (· == '0') then cs.takeWhile (· ≠ '.') else cs
  | _ => cs

def dropUnderscores (cs : List Char) : Option (List Char) :=
  if cs.head? = some '_' ∨ cs.getLast? = some '_' then none
  else if (cs.zip cs.tail).any fun (a, b) => a == '_' && b == '_' then none
  else some (cs.filter (· ≠ '_'))

def dropPlus : List Char → List Char
  | '+' :: '-' :: rest => '+' :: '-' :: rest
  | '+' :: rest => rest
  | cs => cs

/-- The plain form of an integer: a sign, if it is negative, and digits. A text that has none may
come out as something else. -/
def plain? (cs : List Char) : Option (List Char) := do
  let number ←
    match dropPlus (Text.stripBy Text.isWhiteSpace cs) with
    | '-' :: rest => ('-' :: ·) <$> dropLeadingZeros rest
    | cs => dropLeadingZeros cs
  dropUnderscores (dropZeroFraction number)

def integerCap : Nat := 4300

def exceedsCap : List Char → Bool
  | '-' :: cs => startsLong cs
  | cs => startsLong cs
where
  startsLong (cs : List Char) : Bool :=
    cs.head? ≠ some '0' && integerCap < (cs.takeWhile isDigit).length

def ofPlain? : List Char → Option Int
  | '-' :: cs => (fun n => -(n : Int)) <$> ofNumeral? cs
  | cs => Int.ofNat <$> ofNumeral? cs
where
  ofNumeral? (cs : List Char) : Option Nat :=
    if cs.isEmpty || !cs.all isDigit || integerCap < cs.length then none
    else if cs.head? = some '0' && cs.length ≠ 1 then none
    else some (Nat.ofDigitChars 10 cs 0)

/-- Reads an integer. Only one that is too long as it stands is reported by its size. -/
def readInt (s : String) : Except Problem Int :=
  if exceedsCap s.toList then .error .integerSize
  else
    match plain? s.toList >>= ofPlain? with
    | some n => .ok n
    | none => .error .integer

def readAbove (least : Int) (problem : Problem) (s : String) : Except Problem Nat := do
  let n ← readInt s
  if n < least then throw problem
  return n.toNat

def setting {α : Type} (environment : List (String × String)) (name : String) (standard : α)
    (read : String → Except Problem α) : Except Problem α :=
  match valueOf? environment name with
  | some s => read s
  | none => .ok standard

def problems {α : Type} (name : String) : Except Problem α → List (String × Problem)
  | .ok _ => []
  | .error p => [(name, p)]

def ofEnvironment (environment : List (String × String)) :
    Except (List (String × Problem)) Settings :=
  let quiet := setting environment "beQuiet" standard.quiet readBool
  let maxTagLength :=
    setting environment "max_tag_length" standard.maxTagLength (readAbove 1 .notPositive)
  let maxDepth := setting environment "max_depth" standard.maxDepth (readAbove 1 .notPositive)
  let jsonIndent := setting environment "json_indent" standard.jsonIndent (readAbove 0 .negative)
  match quiet, maxTagLength, maxDepth, jsonIndent with
  | .ok quiet, .ok maxTagLength, .ok maxDepth, .ok jsonIndent =>
    .ok ⟨quiet, maxTagLength, maxDepth, jsonIndent⟩
  | _, _, _, _ =>
    .error (problems "beQuiet" quiet ++ problems "max_tag_length" maxTagLength ++
      problems "max_depth" maxDepth ++ problems "json_indent" jsonIndent)

end Settings

def validationSummary (count : Nat) (subject : String) : String :=
  toString count ++ (if count = 1 then " validation error for " else " validation errors for ") ++
    subject

end Inlay
