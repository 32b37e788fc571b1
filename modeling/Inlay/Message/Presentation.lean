import Inlay.Message.Complaint
import Inlay.Number.Literal
import Inlay.Value.Range

/-! Presentations: what a template asks of the text of a value, as
`[[fill]align][sign][z][#][0][width][separator][.precision][form]`. -/

namespace Inlay.Message

inductive Alignment where
  | left
  | right
  | centre
  | afterSign
  deriving DecidableEq

def Alignment.ofChar? : Char → Option Alignment
  | '<' => some .left
  | '>' => some .right
  | '^' => some .centre
  | '=' => some .afterSign
  | _ => none

structure Presentation where
  fill : Char
  alignment : Alignment
  sign : Option Char
  coerced : Bool
  alternate : Bool
  width : Option Nat
  separator : Option Char
  precision : Option Nat
  form : Option Char

namespace Presentation

def splitAlignment : List Char → Option Char × Option Alignment × List Char
  | [] => (none, none, [])
  | [c] =>
    match Alignment.ofChar? c with
    | some a => (none, some a, [])
    | none => (none, none, [c])
  | c :: d :: rest =>
    match Alignment.ofChar? d, Alignment.ofChar? c with
    | some a, _ => (some c, some a, rest)
    | none, some a => (none, some a, d :: rest)
    | none, none => (none, none, c :: d :: rest)

def splitOne (p : Char → Bool) : List Char → Option Char × List Char
  | [] => (none, [])
  | c :: rest => if p c then (some c, rest) else (none, c :: rest)

def splitNumber (cs : List Char) : Except Complaint (Option Nat × List Char) :=
  match Number.splitDigits cs with
  | ([], rest) => .ok (none, rest)
  | (digits, rest) =>
    let n := Number.ofDigits digits
    if n < Range.countCap then .ok (some n, rest) else .error .longNumber

def splitSeparator (cs : List Char) : Except Complaint (Option Char × List Char) :=
  let (comma, rest) := splitOne (· == ',') cs
  let (underscore, rest) := splitOne (· == '_') rest
  if underscore.isSome && (comma.isSome || rest.head? = some ',') then .error .groupedTwice
  else .ok (comma <|> underscore, rest)

def splitPrecision : List Char → Except Complaint (Option Nat × List Char)
  | '.' :: rest => do
    match ← splitNumber rest with
    | (none, _) => throw .noPrecision
    | found => return found
  | cs => .ok (none, cs)

def mayGroup (separator : Char) (form : Option Char) : Bool :=
  match form with
  | none | some '\x00' => true
  | some f => ['d', 'e', 'f', 'g', 'E', 'G', '%', 'F'].contains f ||
      (separator == '_' && ['b', 'o', 'x', 'X'].contains f)

/-- Reads a presentation. Values of a type stand at the side that is usual for it, and have a usual
form; a zero in front of the width fills numbers up after their sign. -/
def parse (typeName : String) (side : Alignment) (form : Option Char) (cs : List Char) :
    Except Complaint Presentation := do
  let (fill, alignment, rest) := splitAlignment cs
  let (sign, rest) := splitOne (fun c => c == ' ' || c == '+' || c == '-') rest
  let (coerced, rest) := splitOne (· == 'z') rest
  let (alternate, rest) := splitOne (· == '#') rest
  let (zero, rest) := splitOne (fun c => fill.isNone && c == '0') rest
  let (width, rest) ← splitNumber rest
  let (separator, rest) ← splitSeparator rest
  let (precision, rest) ← splitPrecision rest
  let form ←
    match rest with
    | [] => pure form
    | [c] => pure (some c)
    | _ => throw (.invalidLayout (String.ofList cs) typeName)
  if let some s := separator then
    if !mayGroup s form then throw (.groupedForm s (form.getD 's'))
  let zeroSide := if side = .right then .afterSign else side
  return {
    fill := fill.getD (if zero.isSome then '0' else ' ')
    alignment := alignment.getD (if zero.isSome then zeroSide else side)
    sign := sign
    coerced := coerced.isSome
    alternate := alternate.isSome
    width := width
    separator := separator
    precision := precision
    form := form }

end Presentation

end Inlay.Message
