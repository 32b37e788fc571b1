import Inlay.Number.Binary64

/-! The text of a double: the fewest decimal digits that read back as the same number. -/

namespace Inlay.Binary64

/-- The count of digits before the decimal point of the positive ratio `num / den`; it is negative
by the count of zeros that follow the point. -/
def pointOf (num den : Nat) : Int :=
  if den ≤ num then (Nat.toDigits 10 (num / den)).length
  else 1 - ((Nat.toDigits 10 ((den - 1) / num)).length : Int)

def shiftTen (num den : Nat) (exponent : Int) : Nat × Nat :=
  if 0 ≤ exponent then (num, den * Nat.pow 10 exponent.toNat)
  else (num * Nat.pow 10 (-exponent).toNat, den)

def neighbours (num den : Nat) (exponent : Int) : List Nat :=
  let (n, d) := shiftTen num den exponent
  let q := n / d
  let r := n % d
  if 2 * r < d ∨ (2 * r = d ∧ q % 2 = 0) then [q, q + 1] else [q + 1, q]

def exactDecimal (mantissa : Nat) (exponent : Int) : Nat × Int :=
  if 0 ≤ exponent then (mantissa * Nat.pow 2 exponent.toNat, 0)
  else (mantissa * Nat.pow 5 (-exponent).toNat, exponent)

/-- The decimal of fewest digits that reads back as this mantissa and exponent, as a multiple of a
power of ten, and of those the nearest. -/
def shortest (mantissa : Nat) (exponent : Int) : Nat × Int :=
  let (num, den) := ratio mantissa exponent
  let point := pointOf num den
  let readsBack (digits : Nat) (unit : Int) : Bool :=
    ofDecimal false digits unit == pack false mantissa exponent
  ((List.range 17).findSome? fun (i : Nat) =>
    let unit := point - ((i : Int) + 1)
    ((neighbours num den unit).find? (readsBack · unit)).map (·, unit)).getD
      (exactDecimal mantissa exponent)

def dropTrailingZeros (cs : List Char) : List Char := (cs.reverse.dropWhile (· == '0')).reverse

/-- Digits with a decimal point after the first `point` of them: positional from 0.0001 up to
10 ^ 16, otherwise with an exponent of at least two digits. -/
def layout (digits : List Char) (point : Int) : List Char :=
  if -4 < point ∧ point ≤ 16 then
    if point ≤ 0 then '0' :: '.' :: (List.replicate (-point).toNat '0' ++ digits)
    else
      let whole := digits.take point.toNat
      let fraction := digits.drop point.toNat
      whole ++ List.replicate (point.toNat - whole.length) '0' ++
        '.' :: (if fraction.isEmpty then ['0'] else fraction)
  else
    let exponent := point - 1
    let power := Nat.toDigits 10 exponent.natAbs
    let fraction := digits.drop 1
    digits.take 1 ++ (if fraction.isEmpty then [] else '.' :: fraction) ++
      'e' :: (if exponent < 0 then '-' else '+') ::
        (List.replicate (2 - power.length) '0' ++ power)

def magnitudeText (mantissa : Nat) (exponent : Int) : List Char :=
  if mantissa = 0 then ['0', '.', '0']
  else
    let (value, unit) := shortest mantissa exponent
    let digits := Nat.toDigits 10 value
    layout (dropTrailingZeros digits) (digits.length + unit)

def text : Binary64 → String
  | .nan => "nan"
  | .infinite negative => if negative then "-inf" else "inf"
  | .finite negative m e _ =>
    String.ofList ((if negative then ['-'] else []) ++ magnitudeText m e)

end Inlay.Binary64
