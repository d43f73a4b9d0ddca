import VirtualLooper.Binary64.Decimal

/-! # The shortest decimal of a number

A finite number is written with the fewest decimal digits that read back to it, and among those
with the digits nearest to it.  The search runs over decimal grids from coarse to fine and tests the
two neighbours of the number on each grid, by reading them back.
-/

namespace VirtualLooper.Binary64

/-- The quotient of a magnitude, in steps, by a power of ten, as numerator and denominator. -/
def scaled (steps : Nat) (exponent : Int) : Nat × Nat :=
  if 0 ≤ exponent then (steps, stepsPerUnit * Nat.pow 10 exponent.toNat)
  else (steps * Nat.pow 10 (-exponent).toNat, stepsPerUnit)

/-- The multiple of `10 ^ exponent` nearest to the magnitude among those that read back to it. -/
def onGrid? (steps : Nat) (exponent : Int) : Option Nat :=
  let (num, den) := scaled steps exponent
  let closest := roundEven num den
  let low := num / den
  let readsBack (digits : Nat) : Bool := ofDecimal false digits exponent = finite false steps
  if readsBack closest then some closest
  else if readsBack low then some low
  else if readsBack (low + 1) then some (low + 1)
  else none

/-- The first grid, from the given one to finer ones, that has a decimal which reads back. -/
def firstGrid (steps : Nat) : (grids : Nat) → (exponent : Int) → Nat × Int
  | 0, exponent => (roundEven (scaled steps exponent).1 (scaled steps exponent).2, exponent)
  | grids + 1, exponent =>
    match onGrid? steps exponent with
    | some digits => (digits, exponent)
    | none => firstGrid steps grids (exponent - 1)

def digitCount (n : Nat) : Nat := (Nat.toDigits 10 n).length

/-- An exponent of ten too coarse for the magnitude, at most two above its leading digit. -/
def coarseExponent (steps : Nat) : Int :=
  if stepsPerUnit ≤ steps then digitCount (steps / stepsPerUnit)
  else 2 - (digitCount (stepsPerUnit / steps) : Int)

/-- The shortest decimal of a nonzero magnitude: digits and exponent.  Twenty grids below the coarse
one are finer than seventeen significant digits. -/
def shortest (steps : Nat) : Nat × Int :=
  firstGrid steps 20 (coarseExponent steps)

/-- Numbers from `10 ^ -4` up to `10 ^ 16` are written with a point in place, all others with an
exponent of at least two digits. -/
def writtenInPlace (pointAt : Int) : Bool := -4 < pointAt && pointAt ≤ 16

def inPlace (digits : List Char) (pointAt : Int) : String :=
  if pointAt ≤ 0 then
    "0." ++ String.ofList (List.replicate (-pointAt).toNat '0' ++ digits)
  else
    let width := pointAt.toNat
    let whole := digits.take width ++ List.replicate (width - digits.length) '0'
    let fraction := digits.drop width
    String.ofList whole ++ "." ++ (if fraction.isEmpty then "0" else String.ofList fraction)

def withExponent (digits : List Char) (exponent : Int) : String :=
  let fraction := digits.drop 1
  let size := toString exponent.natAbs
  String.ofList (digits.take 1) ++
    (if fraction.isEmpty then "" else "." ++ String.ofList fraction) ++
    (if exponent < 0 then "e-" else "e+") ++ (if size.length < 2 then "0" ++ size else size)

def magnitudeText (steps : Nat) : String :=
  let (value, exponent) := shortest steps
  let digits := Nat.toDigits 10 value
  let pointAt := digits.length + exponent
  let significant := (digits.reverse.dropWhile (· = '0')).reverse
  if writtenInPlace pointAt then inPlace significant pointAt
  else withExponent significant (pointAt - 1)

/-- The text of a number: the shortest decimal that reads back. -/
def text : Binary64 → String
  | finite negative steps =>
    (if negative then "-" else "") ++ if steps = 0 then "0.0" else magnitudeText steps
  | infinite negative => if negative then "-inf" else "inf"
  | nan _ => "nan"

end VirtualLooper.Binary64
