/-! # Turning points

A class of code points that splits into runs is held by a list of turning points: the code points at
which a run begins or ends.  A code point is in the class exactly when an odd number of turning
points lies at or below it.
-/

namespace VirtualLooper.Text

/-- Does an odd number of turning points lie at or below the code point? -/
def inOddRun (turns : List Nat) (code : Nat) : Bool :=
  turns.countP (· ≤ code) % 2 = 1

end VirtualLooper.Text
