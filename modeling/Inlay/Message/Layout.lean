import Inlay.Message.Presentation
import Inlay.Number.Decimal
import Inlay.Value.Literal

/-! The text of a value under a presentation. -/

namespace Inlay.Message

def widthCap : Nat := 0x100000000

def checkWidth (width : Nat) : Except Complaint Unit :=
  if width < widthCap then .ok () else .error .tooWide

namespace Presentation

def padding (p : Presentation) (length : Nat) : Nat × Nat × Nat :=
  let n := p.width.getD 0 - length
  match p.alignment with
  | .left => (0, 0, n)
  | .right => (n, 0, 0)
  | .centre => (n / 2, 0, n - n / 2)
  | .afterSign => (0, n, 0)

def filled (p : Presentation) (n : Nat) : List Char := List.replicate n p.fill

def layText (p : Presentation) (cs : List Char) : Except Complaint (List Char) := do
  match p.sign with
  | some ' ' => throw .spacedText
  | some _ => throw .signedText
  | none => pure ()
  if p.coerced then throw .coercedText
  if p.alternate then throw .alternateText
  if p.alignment = .afterSign then throw .digitAlignedText
  checkWidth (p.width.getD 0)
  let cs := match p.precision with | some n => cs.take n | none => cs
  let (front, _, back) := p.padding cs.length
  return p.filled front ++ cs ++ p.filled back

end Presentation

structure Numeral where
  negative : Bool
  base : List Char
  whole : List Char
  rest : List Char

namespace Presentation

def groupSize (p : Presentation) : Nat :=
  match p.form with
  | some 'b' | some 'o' | some 'x' | some 'X' => 4
  | _ => 3

def digitsFor (p : Presentation) (columns : Nat) : Nat :=
  match p.separator with
  | none => columns
  | some _ =>
    let period := p.groupSize + 1
    columns - columns / period + (if columns % period = 0 then 1 else 0)

def groupFromEnd (size : Nat) (separator : Char) : Nat → List Char → List Char
  | _, [] => []
  | n, c :: rest =>
    if n = size then separator :: c :: groupFromEnd size separator 1 rest
    else c :: groupFromEnd size separator (n + 1) rest

def grouped (p : Presentation) (digits : List Char) : List Char :=
  match p.separator with
  | none => digits
  | some s => (groupFromEnd p.groupSize s 0 digits.reverse).reverse

def signText (p : Presentation) (negative : Bool) : List Char :=
  if negative then ['-'] else if p.sign = some '+' ∨ p.sign = some ' ' then p.sign.toList else []

/-- A number. Zeros that fill it up after its sign count as digits, and are grouped like them. -/
def layNumeral (p : Presentation) (n : Numeral) : Except Complaint (List Char) := do
  checkWidth (p.width.getD 0)
  let sign := p.signText n.negative
  let others := sign.length + n.base.length + n.rest.length
  let least :=
    if p.fill = '0' ∧ p.alignment = .afterSign then p.digitsFor (p.width.getD 0 - others) else 0
  let zeros := if n.whole.isEmpty then 0 else least - n.whole.length
  let digits := p.grouped (List.replicate zeros '0' ++ n.whole)
  let (front, middle, back) := p.padding (others + digits.length)
  return p.filled front ++ sign ++ n.base ++ p.filled middle ++ digits ++ n.rest ++ p.filled back

def character (n : Int) : Except Complaint Char :=
  if (Range.countCap : Int) ≤ n ∨ n < -(Range.countCap : Int) then .error .longCharacter
  else if n < 0 ∨ 0x10FFFF < n then .error .notCharacter
  else .ok (Char.ofNat n.toNat)

def inBase (p : Presentation) (base : Nat) (mark : Char) (n : Int) : Numeral :=
  ⟨n < 0, if p.alternate then ['0', mark] else [], Nat.toDigits base n.natAbs, []⟩

def upperCase (n : Numeral) : Numeral :=
  { n with
    base := n.base.map Char.toUpper
    whole := n.whole.map Char.toUpper
    rest := n.rest.map Char.toUpper }

def integerNumeral (p : Presentation) (n : Int) : Except Complaint Numeral :=
  match p.form with
  | some 'b' => .ok (p.inBase 2 'b' n)
  | some 'o' => .ok (p.inBase 8 'o' n)
  | some 'x' => .ok (p.inBase 16 'x' n)
  | some 'X' => .ok (upperCase (p.inBase 16 'x' n))
  | some 'c' => do
    if p.sign.isSome then throw .signedCharacter
    if p.alternate then throw .alternateCharacter
    return ⟨false, [], [], [← character n]⟩
  | _ => .ok ⟨n < 0, [], Nat.toDigits 10 n.natAbs, []⟩

def layInteger (p : Presentation) (n : Int) : Except Complaint (List Char) := do
  if p.precision.isSome then throw .preciseInteger
  if p.coerced then throw .coercedInteger
  p.layNumeral (← p.integerNumeral n)

def fractionText (p : Presentation) (fraction : List Char) : List Char :=
  if fraction.isEmpty && !p.alternate then [] else '.' :: fraction

open Decimal

def exponential (p : Presentation) (d : Digits) : List Char × List Char :=
  (d.digits.take 1, p.fractionText (d.digits.drop 1) ++ exponentText 'e' (d.point - 1))

/-- Digits in their places. A number of no form has at least one digit after the point. -/
def positional (p : Presentation) (d : Digits) : List Char × List Char :=
  let fraction := if d.fraction.isEmpty && p.form.isNone then ['0'] else d.fraction
  (d.whole, p.fractionText fraction)

def ratioParts (p : Presentation) (form : Option Char) (num den : Nat) : List Char × List Char :=
  let precision := p.precision.getD 6
  match form with
  | some 'e' => p.exponential (significant num den (precision + 1))
  | some 'f' =>
    let (whole, places) := withPlaces num den precision
    (whole, p.fractionText places)
  | some '%' =>
    let (whole, places) := withPlaces num den precision
    (whole, p.fractionText places ++ ['%'])
  | _ =>
    let count := if precision = 0 then 1 else precision
    let d := significant num den count
    let shown := if p.alternate then d else d.trimmed
    let most : Int := if form.isNone then (count : Int) - 1 else count
    if -4 < d.point ∧ d.point ≤ most then p.positional shown else p.exponential shown

def shortestParts (p : Presentation) (mantissa : Nat) (exponent : Int) : List Char × List Char :=
  if mantissa = 0 then p.positional ⟨['0'], 1⟩
  else
    let (value, unit) := Binary64.shortest mantissa exponent
    let digits := Nat.toDigits 10 value
    let d : Digits := Digits.trimmed ⟨digits, digits.length + unit⟩
    if -4 < d.point ∧ d.point ≤ 16 then p.positional d else p.exponential d

def isZeroText (cs : List Char) : Bool :=
  (cs.takeWhile (· ≠ 'e')).all fun c => !c.isDigit || c = '0'

def baseForm (p : Presentation) : Option Char :=
  p.form.map fun c => if c = 'n' then 'g' else c.toLower

def percentMark (p : Presentation) : List Char := if p.form = some '%' then ['%'] else []

def floatNumeral (p : Presentation) (x : Binary64) : Numeral :=
  match if p.form = some '%' then x.hundredfold else x with
  | .nan => ⟨false, [], [], ['n', 'a', 'n'] ++ p.percentMark⟩
  | .infinite negative => ⟨negative, [], [], ['i', 'n', 'f'] ++ p.percentMark⟩
  | .finite negative m e _ =>
    let (num, den) := Binary64.ratio m e
    let (whole, rest) :=
      if p.form.isNone && p.precision.isNone then p.shortestParts m e
      else p.ratioParts p.baseForm num den
    ⟨negative && !(p.coerced && isZeroText (whole ++ rest)), [], whole, rest⟩

def layFloat (p : Presentation) (x : Binary64) : Except Complaint (List Char) := do
  if p.precision.any (0x7FFFFFFF < ·) then throw .overlyPrecise
  let n := p.floatNumeral x
  p.layNumeral (if p.form.any Char.isUpper then upperCase n else n)

end Presentation

def isFloatForm (c : Char) : Bool := ['e', 'E', 'f', 'F', 'g', 'G', '%'].contains c

def isIntegerForm (c : Char) : Bool := ['b', 'c', 'd', 'o', 'x', 'X', 'n'].contains c

def layWhole (typeName : String) (n : Int) (layout : List Char) : Except Complaint (List Char) := do
  let p ← Presentation.parse typeName .right (some 'd') layout
  let form := p.form.getD 'd'
  if isIntegerForm form then p.layInteger n
  else if isFloatForm form then
    match Binary64.ofInt? n with
    | some x => p.layFloat x
    | none => throw .longFloat
  else throw (.unknownForm form typeName)

def display : Value → Except Complaint (List Char)
  | .text s => .ok s.toList
  | v =>
    match v.literal with
    | .ok s => .ok s.toList
    | .error f => .error (.unwritable f)

/-- The text of a value under a layout. The empty layout leaves every value as it is. -/
def lay (v : Value) (layout : List Char) : Except Complaint (List Char) :=
  if layout.isEmpty then display v
  else
    match v with
    | .text s => do
      let p ← Presentation.parse v.typeName .left (some 's') layout
      let form := p.form.getD 's'
      if form = 's' then p.layText s.toList else throw (.unknownForm form v.typeName)
    | .int n => layWhole v.typeName n layout
    | .bool b => layWhole v.typeName (if b then 1 else 0) layout
    | .float x => do
      let p ← Presentation.parse v.typeName .right none layout
      match p.form with
      | none | some '\x00' => Presentation.layFloat { p with form := none } x
      | some form =>
        if isFloatForm form || form = 'n' then p.layFloat x
        else throw (.unknownForm form v.typeName)
    | v => .error (.unsupportedLayout v.typeName)

end Inlay.Message
