import VirtualLooper.Binary64.Basic
import VirtualLooper.Text.Blank
import VirtualLooper.Text.Digit

/-! # Reading a decimal

`ofDecimal` is the correctly rounded value of a decimal with an exponent.  `read?` is the grammar of
written numbers: blanks around it, a sign, then either one of the words for infinity and for what is
not a number, in any case, or digits with an optional point and exponent.  Digits of every script
count, and one underscore may stand between two digits.
-/

namespace VirtualLooper.Binary64

open Text

/-- Decimals with an exponent beyond this are infinite, whatever their digits. -/
def hugeExponent : Int := 400

/-- The value of `digits * 10 ^ exponent`.  The two outer cases are decided by size alone, so that
no power of ten larger than needed is ever formed. -/
def ofDecimal (negative : Bool) (digits : Nat) (exponent : Int) : Binary64 :=
  if digits = 0 then finite negative 0
  else if hugeExponent < exponent then infinite negative
  else if exponent < -(hugeExponent + digits.log2 + 1) then finite negative 0
  else if 0 ≤ exponent then ofQuotient negative (digits * Nat.pow 10 exponent.toNat) 1
  else ofQuotient negative digits (Nat.pow 10 (-exponent).toNat)

def ofDigits (ds : List Nat) : Nat :=
  ds.foldl (fun n d => 10 * n + d) 0

def digitRun : List Char → List Nat × List Char
  | [] => ([], [])
  | c :: rest =>
    match asciiDigit? c with
    | some d => let (ds, rest) := digitRun rest; (d :: ds, rest)
    | none => ([], c :: rest)

def signOf : List Char → Bool × List Char
  | '-' :: rest => (true, rest)
  | '+' :: rest => (false, rest)
  | rest => (false, rest)

/-- The exponent part; nothing at all stands for the exponent zero. -/
def exponentOf? : List Char → Option Int
  | [] => some 0
  | c :: rest =>
    if c = 'e' || c = 'E' then
      let (negative, rest) := signOf rest
      match digitRun rest with
      | ([], _) => none
      | (ds, []) => some (if negative then -(ofDigits ds : Int) else ofDigits ds)
      | (_, _ :: _) => none
    else none

/-- Digits, an optional point with digits, and an exponent.  At least one digit is needed. -/
def unsigned? (negative : Bool) (cs : List Char) : Option Binary64 :=
  let (whole, rest) := digitRun cs
  let (fraction, rest) := match rest with
    | '.' :: rest => digitRun rest
    | rest => ([], rest)
  if whole.isEmpty && fraction.isEmpty then none
  else (exponentOf? rest).map fun e =>
    ofDecimal negative (ofDigits (whole ++ fraction)) (e - fraction.length)

def plain? (mark : Nat) (cs : List Char) : Option Binary64 :=
  let (negative, rest) := signOf cs
  let word := String.ofList (rest.map Char.toLower)
  if word = "inf" || word = "infinity" then some (infinite negative)
  else if word = "nan" then some (nan mark)
  else unsigned? negative rest

/-- Takes out underscores, each of which has to stand between two digits. -/
def withoutUnderscores? : (afterDigit : Bool) → List Char → Option (List Char)
  | _, [] => some []
  | afterDigit, '_' :: rest =>
    match rest with
    | c :: _ => if afterDigit && c.isDigit then withoutUnderscores? false rest else none
    | [] => none
  | _, c :: rest => (withoutUnderscores? c.isDigit rest).map (c :: ·)

/-- The ASCII character that stands for a character in a written number, if any: a digit of another
script is as good as the ASCII one. -/
def asciiOf? (c : Char) : Option Char :=
  if c.toNat < 0x7f then some c
  else (decimalDigit? c).map fun d => Char.ofNat ('0'.toNat + d)

/-- Reads a written number.  What it writes as not a number gets the given mark. -/
def read? (mark : Nat) (cs : List Char) : Option Binary64 := do
  let cs ← (trimBoth isNumberBlank cs).mapM asciiOf?
  plain? mark (← withoutUnderscores? false cs)

end VirtualLooper.Binary64
