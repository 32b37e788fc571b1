/-! Sets of code points, kept as the sorted list of places where membership changes. -/

namespace Inlay.Text

/-- Whether `n` lies in one of the half-open runs that the sorted bounds delimit, two by two. -/
def inRuns (n : Nat) : List Nat → Bool
  | first :: past :: rest => if n < first then false else n < past || inRuns n rest
  | _ => false

end Inlay.Text
