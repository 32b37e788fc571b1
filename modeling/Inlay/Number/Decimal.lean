import Inlay.Number.Shortest

/-! Decimals of a chosen length: a ratio rounded to a count of digits or of places. Halves go to the
even digit. -/

namespace Inlay.Decimal

/-- Digits, and how many of them stand before the decimal point; the count is negative where zeros
follow the point. -/
structure Digits where
  digits : List Char
  point : Int

def scaled (num den places : Nat) : Nat := Binary64.roundDiv (num * Nat.pow 10 places) den

/-- The ratio rounded to a count of digits, the first of which is not zero unless the ratio is. -/
def significant (num den count : Nat) : Digits :=
  if num = 0 then ⟨List.replicate count '0', 1⟩
  else
    let point := Binary64.pointOf num den
    let (n, d) := Binary64.shiftTen num den (point - count)
    let digits := Nat.toDigits 10 (Binary64.roundDiv n d)
    ⟨digits.take count, point + ((digits.length : Int) - count)⟩

def Digits.whole (d : Digits) : List Char :=
  if d.point ≤ 0 then ['0']
  else
    let whole := d.digits.take d.point.toNat
    whole ++ List.replicate (d.point.toNat - whole.length) '0'

def Digits.fraction (d : Digits) : List Char :=
  List.replicate (-d.point).toNat '0' ++ d.digits.drop d.point.toNat

def Digits.trimmed (d : Digits) : Digits :=
  let digits := Binary64.dropTrailingZeros d.digits
  { d with digits := if digits.isEmpty then ['0'] else digits }

def withPlaces (num den places : Nat) : List Char × List Char :=
  let digits := Nat.toDigits 10 (scaled num den places)
  let padded := List.replicate (places + 1 - digits.length) '0' ++ digits
  (padded.take (padded.length - places), padded.drop (padded.length - places))

def exponentText (mark : Char) (n : Int) : List Char :=
  let digits := Nat.toDigits 10 n.natAbs
  mark :: (if n < 0 then '-' else '+') :: (List.replicate (2 - digits.length) '0' ++ digits)

end Inlay.Decimal
