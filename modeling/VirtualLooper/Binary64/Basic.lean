/-! # Binary64 numbers as exact data

Every finite binary64 number is a whole number of steps of size `2 ^ -1074`, so it is kept as that
number and a sign.  Addition, multiplication and the reading of a quotient are then one exact
computation on natural numbers followed by one rounding, `nearest`: to 53 significant bits, a half
to the even neighbour, and to infinity from `2 ^ 1024` on.  Comparison is comparison of integers.

A number that is not a number carries a mark.  It never equals anything, but a list that holds it is
equal to itself; the mark tells one such occurrence from another.
-/

namespace VirtualLooper

/-- A binary64 number; a finite one is the given number of steps of size `2 ^ -1074`. -/
inductive Binary64
  | finite (negative : Bool) (steps : Nat)
  | infinite (negative : Bool)
  | nan (mark : Nat)
  deriving DecidableEq, Repr

namespace Binary64

def stepsPerUnit : Nat := Nat.pow 2 1074

/-- Magnitudes of this many steps, `2 ^ 1024`, and more are infinite. -/
def overflowSteps : Nat := Nat.pow 2 2098

/-- The quotient to the nearest natural number, a half to the even one. -/
def roundEven (num den : Nat) : Nat :=
  let q := num / den
  let r := 2 * (num % den)
  if r < den then q
  else if den < r then q + 1
  else if q % 2 = 0 then q else q + 1

/-- The number of low bits that a magnitude loses when it is cut to 53 significant ones. -/
def excessBits (steps : Nat) : Nat := steps.log2 - 52

def nearest (negative : Bool) (num den : Nat) : Binary64 :=
  let unit := Nat.pow 2 (excessBits (num / den))
  let steps := roundEven num (den * unit) * unit
  if overflowSteps ≤ steps then infinite negative else finite negative steps

def ofQuotient (negative : Bool) (num den : Nat) : Binary64 :=
  nearest negative (num * stepsPerUnit) den

def ofInt (n : Int) : Binary64 :=
  ofQuotient (n < 0) n.natAbs 1

def zero : Binary64 := finite false 0

def signed (negative : Bool) (steps : Nat) : Int :=
  if negative then -(steps : Int) else steps

def mul : Binary64 → Binary64 → Binary64
  | nan mark, _ => nan mark
  | _, nan mark => nan mark
  | infinite s, infinite t => infinite (s != t)
  | infinite s, finite t n => if n = 0 then nan 0 else infinite (s != t)
  | finite s m, infinite t => if m = 0 then nan 0 else infinite (s != t)
  | finite s m, finite t n => nearest (s != t) (m * n) stepsPerUnit

/-- The sum, correctly rounded; a zero sum is negative only if both terms are. -/
def add : Binary64 → Binary64 → Binary64
  | nan mark, _ => nan mark
  | _, nan mark => nan mark
  | infinite s, infinite t => if s = t then infinite s else nan 0
  | infinite s, finite _ _ => infinite s
  | finite _ _, infinite t => infinite t
  | finite s m, finite t n =>
    let sum := signed s m + signed t n
    nearest (if sum = 0 then s && t else sum < 0) sum.natAbs 1

def neg : Binary64 → Binary64
  | finite s m => finite (!s) m
  | infinite s => infinite (!s)
  | nan mark => nan mark

/-- The place of a number on the line of numbers, in steps; none for what is not a number. -/
inductive Place
  | below
  | at (steps : Int)
  | above
  deriving DecidableEq, Repr

def place? : Binary64 → Option Place
  | finite s m => some (.at (signed s m))
  | infinite true => some .below
  | infinite false => some .above
  | nan _ => none

def Place.ofInt (n : Int) : Place := .at (n * stepsPerUnit)

def Place.le : Place → Place → Bool
  | .below, _ => true
  | _, .above => true
  | .at m, .at n => m ≤ n
  | _, _ => false

theorem stepsPerUnit_pos : 0 < stepsPerUnit := by
  unfold stepsPerUnit
  generalize 1074 = k
  exact Nat.two_pow_pos k

theorem Place.ofInt_le_ofInt (m n : Int) : (ofInt m).le (ofInt n) = decide (m ≤ n) := by
  have hPos : (0 : Int) < stepsPerUnit := Int.natCast_pos.2 stepsPerUnit_pos
  exact decide_eq_decide.2 (Int.mul_le_mul_right hPos)

def isNonzero : Binary64 → Bool
  | finite _ m => m != 0
  | _ => true

end Binary64

end VirtualLooper
