/-! Double-precision numbers, exactly: rounding goes to the nearest, and halves to the even
mantissa. All arithmetic is on natural numbers. -/

namespace Inlay

def leadingBit : Nat := 0x10000000000000

/-- A mantissa with its leading bit, or a smaller one at the least exponent. -/
def Canonical (mantissa : Nat) (exponent : Int) : Prop :=
  mantissa < 2 * leadingBit ∧ -1074 ≤ exponent ∧ exponent ≤ 971 ∧
    (leadingBit ≤ mantissa ∨ exponent = -1074)

instance (m : Nat) (e : Int) : Decidable (Canonical m e) := by unfold Canonical; infer_instance

/-- A finite number stands for `mantissa * 2 ^ exponent`, with its sign; zero has two signs. -/
inductive Binary64 where
  | nan
  | infinite (negative : Bool)
  | finite (negative : Bool) (mantissa : Nat) (exponent : Int)
      (canonical : Canonical mantissa exponent)
  deriving DecidableEq

namespace Binary64

def zero (negative : Bool) : Binary64 := .finite negative 0 (-1074) (by decide)

def pack (negative : Bool) (mantissa : Nat) (exponent : Int) : Binary64 :=
  if h : Canonical mantissa exponent then .finite negative mantissa exponent h
  else .infinite negative

/-- The quotient rounded to the nearest, halves to even. -/
def roundDiv (num den : Nat) : Nat :=
  let q := num / den
  let r := num % den
  if 2 * r < den then q else if den < 2 * r then q + 1 else if q % 2 = 0 then q else q + 1

def shift (num den : Nat) (exponent : Int) : Nat × Nat :=
  if 0 ≤ exponent then (num, den * Nat.pow 2 exponent.toNat)
  else (num * Nat.pow 2 (-exponent).toNat, den)

/-- The exponent at which the integral part of `num / den` has 53 bits, or the least one. -/
def exponentFor (num den : Nat) : Int :=
  let e := max (-1074) ((num.log2 : Int) - den.log2 - 52)
  let (n, d) := shift num den e
  if -1074 < e ∧ n / d < leadingBit then e - 1 else e

def ofRatio (negative : Bool) (num den : Nat) : Binary64 :=
  if num = 0 then zero negative
  else
    let e := exponentFor num den
    let (n, d) := shift num den e
    let m := roundDiv n d
    if m = 2 * leadingBit then pack negative leadingBit (e + 1) else pack negative m e

/-- The number nearest to `digits * 10 ^ exponent`. Exponents far out of range are settled by the
count of digits alone. -/
def ofDecimal (negative : Bool) (digits : Nat) (exponent : Int) : Binary64 :=
  let magnitude := exponent + (Nat.toDigits 10 digits).length
  if digits = 0 ∨ magnitude < -330 then zero negative
  else if 310 < magnitude then .infinite negative
  else if 0 ≤ exponent then ofRatio negative (digits * Nat.pow 10 exponent.toNat) 1
  else ofRatio negative digits (Nat.pow 10 (-exponent).toNat)

def ofInt? (n : Int) : Option Binary64 :=
  match ofRatio (n < 0) n.natAbs 1 with
  | .finite s m e h => some (.finite s m e h)
  | _ => none

def isFinite : Binary64 → Bool
  | .finite .. => true
  | _ => false

def ratio (mantissa : Nat) (exponent : Int) : Nat × Nat :=
  if 0 ≤ exponent then (mantissa * Nat.pow 2 exponent.toNat, 1)
  else (mantissa, Nat.pow 2 (-exponent).toNat)

def signed (negative : Bool) (n : Nat) : Int := if negative then -n else n

def toInt? : Binary64 → Option Int
  | .finite s m e _ =>
    let (n, d) := ratio m e
    if n % d = 0 then some (signed s (n / d)) else none
  | _ => none

def hundredfold : Binary64 → Binary64
  | .finite s m e _ =>
    let (num, den) := ratio m e
    ofRatio s (num * 100) den
  | x => x

def add : Binary64 → Binary64 → Binary64
  | .nan, _ | _, .nan => .nan
  | .infinite s, .infinite t => if s = t then .infinite s else .nan
  | .infinite s, _ | _, .infinite s => .infinite s
  | .finite s m e _, .finite t k f _ =>
    let (a, b) := ratio m e
    let (c, d) := ratio k f
    let sum := signed s (a * d) + signed t (c * b)
    if sum = 0 then zero (s && t) else ofRatio (sum < 0) sum.natAbs (b * d)

end Binary64

end Inlay
