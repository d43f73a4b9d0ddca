import VirtualLooper.Failure

/-! # The virtual clock

The clock shows an integer and moves only when it is told to, never backwards.
-/

namespace VirtualLooper

def checkNonNegative (what : Quantity) : Value → Except Failure Int
  | .int n => if n < 0 then .error (Failure.negative what n).orUnwritable else .ok n
  | v => .error (.notAnInt what v.kind)

/-- A clock; its time is that of the last move. -/
structure Clock where
  now : Int
  deriving DecidableEq, Repr

namespace Clock

def start (time : Value) : Except Failure Clock :=
  (checkNonNegative .startTime time).map Clock.mk

def advance (c : Clock) (amount : Value) : Except Failure Clock :=
  (checkNonNegative .amount amount).map fun n => ⟨c.now + n⟩

theorem spec_of_advance {c c' : Clock} {amount : Value} (h : c.advance amount = .ok c') :
    ∃ n : Int, 0 ≤ n ∧ amount = .int n ∧ c'.now = c.now + n := by
  cases amount with
  | int n =>
    by_cases hNeg : n < 0
    · simp [advance, checkNonNegative, hNeg, Except.map] at h
    · simp only [advance, checkNonNegative, if_neg hNeg, Except.map, Except.ok.injEq] at h
      subst h
      exact ⟨n, by omega, rfl, rfl⟩
  | _ => simp [advance, checkNonNegative, Except.map] at h

end Clock

end VirtualLooper
