import VirtualLooper.Binary64.Decimal
import VirtualLooper.Text.Base64
import VirtualLooper.Text.Lower
import VirtualLooper.Yaml.Time

/-! # Scalars by tag

A plain scalar implies its tag by its text: `Tag.implied` is that rule.  `Tag.scalar` is the value
of a scalar of a given tag.  Integers may be binary, octal with a leading zero, hexadecimal, or in
base sixty with colons between the places; floats need a point, and a sign in the exponent.
Underscores between digits have no meaning.  Bytes are written in base 64, and no text implies them.
-/

namespace VirtualLooper.Yaml

/-- A tag; `bare` is the tag that asks for the implied one, and `merge` and `default` are those of
the two special keys. -/
inductive Tag
  | null | bool | int | float | str | binary | time | seq | map | pairs | set
  | merge | default
  | bare
  | other (text : String)
  deriving DecidableEq, Repr

def Tag.standardStart : String := "tag:yaml.org,2002:"

def Tag.isScalar : Tag → Bool
  | null | bool | int | float | str | binary | time => true
  | _ => false

def Tag.standard : List (String × Tag) :=
  [("null", null), ("bool", bool), ("int", int), ("float", float), ("str", str),
   ("binary", binary), ("timestamp", time), ("seq", seq), ("map", map), ("pairs", pairs),
   ("omap", pairs), ("set", set), ("merge", merge), ("value", default)]

def Tag.ofText (text : String) : Tag :=
  if text = "!" then bare
  else
    match standard.find? fun t => Tag.standardStart ++ t.1 = text with
    | some (_, t) => t
    | none => other text

/-! ### Texts of numbers -/

def isPlaceOf (base : Nat) (c : Char) : Bool :=
  c = '_' || (Text.hexDigit? c).any (· < base)

def unsigned : List Char → List Char
  | '-' :: rest => rest
  | '+' :: rest => rest
  | rest => rest

def isDecimal : List Char → Bool
  | c :: rest => c.isDigit && rest.all (isPlaceOf 10)
  | [] => false

def isSixtieth : List Char → Bool
  | [a] => a.isDigit
  | [a, b] => '0' ≤ a && a ≤ '5' && b.isDigit
  | _ => false

/-- Places in base sixty, at least two; the first may be any decimal of the given form. -/
def isSexagesimal (first : List Char → Bool) (cs : List Char) : Bool :=
  match Text.splitOn ':' cs with
  | a :: b :: rest => first a && (b :: rest).all isSixtieth
  | _ => false

def isProper (cs : List Char) : Bool := isDecimal cs && cs.head? ≠ some '0'

def impliesInt (cs : List Char) : Bool :=
  match unsigned cs with
  | '0' :: 'b' :: rest => !rest.isEmpty && rest.all (isPlaceOf 2)
  | '0' :: 'x' :: rest => !rest.isEmpty && rest.all (isPlaceOf 16)
  | '0' :: rest => rest.all (isPlaceOf 8)
  | rest => isProper rest || isSexagesimal isProper rest

def isExponent : List Char → Bool
  | [] => true
  | e :: sign :: rest =>
    (e = 'e' || e = 'E') && (sign = '-' || sign = '+') && !rest.isEmpty && rest.all Char.isDigit
  | _ => false

def impliesFloat (cs : List Char) : Bool :=
  let afterPoint := (cs.dropWhile (· ≠ '.')).drop 1
  let beforePoint := (unsigned cs).takeWhile (· ≠ '.')
  let text := String.ofList (unsigned cs)
  cs.contains '.' &&
    ((isDecimal beforePoint && isExponent (afterPoint.dropWhile (isPlaceOf 10))) ||
     (cs.head? = some '.' && isDecimal (afterPoint.takeWhile (isPlaceOf 10)) &&
       isExponent (afterPoint.dropWhile (isPlaceOf 10))) ||
     (isSexagesimal isDecimal beforePoint && afterPoint.all (isPlaceOf 10)) ||
     text = ".inf" || text = ".Inf" || text = ".INF" ||
     cs = ".nan".toList || cs = ".NaN".toList || cs = ".NAN".toList)

def truthWords : List String :=
  ["yes", "Yes", "YES", "no", "No", "NO", "true", "True", "TRUE", "false", "False", "FALSE",
   "on", "On", "ON", "off", "Off", "OFF"]

/-- A text without the line feed at its end, unless it is nothing else. -/
def withoutLastBreak (cs : List Char) : List Char :=
  if cs.getLast? = some '\n' && cs.length ≠ 1 then cs.dropLast else cs

/-- The indicators that imply a tag of their own, for which there are no values. -/
def indicatorWords : List String := ["!", "&", "*"]

/-- The tag that a text implies.  A line feed at its end does not count. -/
def Tag.implied (text : Text) : Tag :=
  let cs := withoutLastBreak text.chars
  let word := String.ofList cs
  if ["", "~", "null", "Null", "NULL"].contains word then null
  else if truthWords.contains word then bool
  else if impliesFloat cs then float
  else if impliesInt cs then int
  else if Time.implied cs then time
  else if word = "<<" then merge
  else if word = "=" then default
  else if indicatorWords.contains word then other (standardStart ++ "yaml")
  else str

/-! ### Values -/

def digitIn? (base : Nat) (c : Char) : Option Nat :=
  (Text.hexDigit? c).filter (· < base)

def baseMark? : Nat → Option Char
  | 2 => some 'b'
  | 8 => some 'o'
  | 16 => some 'x'
  | _ => none

def withoutMark (base : Nat) : List Char → List Char
  | '0' :: mark :: rest =>
    if (baseMark? base).any (· = mark.toLower) then rest else '0' :: mark :: rest
  | rest => rest

def noDigit : Char := '?'

/-- The base in which only so many digits are read as may be written. -/
def limitedBase : Nat := 10

/-- The integer that a text writes in a base: digits, perhaps behind a sign and the mark of the
base. -/
def integer (base : Nat) (t : Text) : Except Failure Int :=
  let ascii := (Text.trimBoth Text.isNumberBlank t.chars).map fun c =>
    (Binary64.asciiOf? c).getD noDigit
  let (negative, rest) := Binary64.signOf ascii
  let places := withoutMark base rest
  let digits := (places.map (digitIn? base)).takeWhile Option.isSome
  if base = limitedBase && Value.digitLimit < digits.length then
    .error (.tooManyDigits digits.length)
  else if digits.isEmpty || digits.length < places.length then .error (.badInteger t base)
  else
    let n := digits.foldl (fun n d => base * n + d.getD 0) 0
    .ok (if negative then -(n : Int) else n)

/-- A sign, and the text behind it; a text that is empty has no first character to look at. -/
def signed : List Glyph → Except Failure (Bool × List Glyph)
  | [] => .error .emptyInteger
  | .char '-' :: rest => .ok (true, rest)
  | .char '+' :: rest => .ok (false, rest)
  | rest => .ok (false, rest)

def withoutUnderscores (t : Text) : Text := ⟨t.glyphs.filter (· ≠ .char '_')⟩

def places (gs : List Glyph) : List Text := (Text.splitOn (.char ':') gs).map (⟨·⟩)

def sexagesimal (places : List Int) : Int := places.foldl (fun n place => 60 * n + place) 0

def intValue (t : Text) : Except Failure Value := do
  let (negative, gs) ← signed (withoutUnderscores t).glyphs
  let n ←
    match gs with
    | [.char '0'] => pure 0
    | .char '0' :: .char 'b' :: rest => integer 2 ⟨rest⟩
    | .char '0' :: .char 'x' :: rest => integer 16 ⟨rest⟩
    | .char '0' :: rest => integer 8 ⟨.char '0' :: rest⟩
    | [] => .error .emptyInteger
    | gs =>
      if gs.contains (.char ':') then ((places gs).mapM (integer 10)).map sexagesimal
      else integer 10 ⟨gs⟩
  return .int (if negative then -n else n)

def number (mark : Nat) (t : Text) : Except Failure Binary64 :=
  match Binary64.read? mark t.chars with
  | some x => .ok x
  | none => .error (.notNumeric t)

/-- The sum of places in base sixty, the last place first; each product and each sum is rounded.
The weight of a place has to be in the range of floats, even if the place is zero. -/
def sumPlaces : (weight : Nat) → Binary64 → List Binary64 → Except Failure Binary64
  | _, sum, [] => .ok sum
  | weight, sum, x :: rest =>
    match Binary64.ofInt weight with
    | .infinite _ => .error .tooLargeForFloat
    | w => sumPlaces (60 * weight) (sum.add (x.mul w)) rest

/-- The value of a text with the tag of floats; `mark` tells one occurrence from another.  All
occurrences of the plain word for what is not a number are the same. -/
def floatValue (mark : Nat) (t : Text) : Except Failure Value := do
  let (negative, gs) ← signed (withoutUnderscores t).lowered.glyphs
  if gs = (Text.ofString ".nan").glyphs then return .float (.nan 0)
  let x ←
    if gs = (Text.ofString ".inf").glyphs then pure (.infinite false)
    else if gs.contains (.char ':') then do
      let places ← (places gs).mapM (number mark)
      sumPlaces 1 .zero places.reverse
    else number mark ⟨gs⟩
  return .float
    (match x with
      | .nan _ => .nan mark
      | x => if negative then x.neg else x)

def boolValue (t : Text) : Except Failure Value :=
  let word := t.lowered
  if ["yes", "true", "on"].contains word.asString then .ok (.bool true)
  else if ["no", "false", "off"].contains word.asString then .ok (.bool false)
  else .error (.badTruthWord word)

def bytesValue (t : Text) : Except Failure Value :=
  if t.glyphs.all fun g => g.code < 0x80 then
    match Text.Base64.decode? t.chars with
    | some bs => .ok (.bytes bs)
    | none => malformed
  else malformed

/-- The value of a text with the tag of times.  A line feed at its end does not count. -/
def timeValue (t : Text) : Except Failure Value :=
  match Time.parse? (withoutLastBreak t.chars) with
  | some time => time.value
  | none => .error .noTime

/-- The value of a scalar with a tag.  Tags of collections, of special keys and unknown ones have no
scalars. -/
def Tag.scalar (tag : Tag) (text : Text) (mark : Nat) : Except Failure Value :=
  match tag with
  | null => .ok .none
  | bool => boolValue text
  | int => intValue text
  | float => floatValue mark text
  | str => .ok (.str text)
  | binary => bytesValue text
  | time => timeValue text
  | _ => malformed

end VirtualLooper.Yaml
