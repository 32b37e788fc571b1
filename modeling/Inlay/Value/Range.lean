/-! Arithmetic progressions: from `start` by `step`, short of `stop`. -/

namespace Inlay

structure Range where
  start : Int
  stop : Int
  step : Int
  deriving DecidableEq

namespace Range

def countCap : Nat := 0x8000000000000000

def length (r : Range) : Nat :=
  if 0 < r.step then ((r.stop - r.start + r.step - 1) / r.step).toNat
  else if r.step < 0 then ((r.start - r.stop - r.step - 1) / -r.step).toNat
  else 0

def nth (r : Range) (n : Nat) : Int := r.start + n * r.step

def toList (r : Range) : List Int := (List.range r.length).map r.nth

end Range

end Inlay
