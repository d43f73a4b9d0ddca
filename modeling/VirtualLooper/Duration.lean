import VirtualLooper.Binary64.Decimal
import VirtualLooper.Failure

/-! # Durations

A scenario gives times as integers, as floats or as text, in milliseconds or, with the unit `s`, in
seconds.  All but integers are read as binary64 numbers, and then have to be a whole number of
milliseconds, up to a tolerance for the rounding of decimals.
-/

namespace VirtualLooper.Duration

open Text

/-- How far from a whole number of milliseconds a duration may lie. -/
def tolerance : Binary64 := .ofDecimal false 1 (-9)

def offset (steps whole : Nat) : Nat :=
  ((steps : Int) - whole * Binary64.stepsPerUnit).natAbs

def exceeds (difference : Nat) : Binary64 → Bool
  | .finite _ limit => limit < difference
  | _ => false

/-- The nearest whole number of milliseconds, if the number is one up to the tolerance. -/
def whole (given : Value) : Binary64 → Except Failure Int
  | .nan _ => .error .undefinedDuration
  | .infinite _ => .error .infiniteDuration
  | .finite negative steps =>
    let rounded := Binary64.roundEven steps Binary64.stepsPerUnit
    if exceeds (offset steps rounded) tolerance then .error (.fractionalDuration given)
    else .ok (if negative then -(rounded : Int) else rounded)

def perSecond : Binary64 := .ofInt 1000

def number (t : Text) : Except Failure Binary64 :=
  match Binary64.read? 0 t.chars with
  | some x => .ok x
  | none => .error (.notNumeric t)

/-- The number of milliseconds that a text writes.  The unit of milliseconds is looked for first, as
it ends in that of seconds. -/
def ofText (t : Text) : Except Failure Binary64 :=
  match t.before? "ms" with
  | some amount => number amount
  | none =>
    match t.before? "s" with
    | some amount => (number amount).map (·.mul perSecond)
    | none => number t

/-- The duration that a value stands for, in milliseconds. -/
def parse (v : Value) : Except Failure Int :=
  match v with
  | .bool _ => .error (.invalidDuration v)
  | .int n => .ok n
  | .float x => whole v x
  | _ => do
    if !v.isWritable then throw .tooLongToWrite
    whole v (← ofText (v.shown.trim isBlank))

end VirtualLooper.Duration
