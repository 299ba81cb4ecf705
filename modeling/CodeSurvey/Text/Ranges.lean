/-!
# Sets of code points

A `Ranges` value lists disjoint ranges of code points in ascending order, both ends included.
-/

namespace CodeSurvey.Text

abbrev Ranges := List (Nat × Nat)

/-- Whether `n` lies in one of the ranges; the search stops at the first range beyond `n`. -/
def Ranges.has : Ranges → Nat → Bool
  | [], _ => false
  | (lo, hi) :: rest, n => if n < lo then false else n ≤ hi || Ranges.has rest n

end CodeSurvey.Text
