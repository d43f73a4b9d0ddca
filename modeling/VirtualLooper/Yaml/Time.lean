import VirtualLooper.Value.Basic
import VirtualLooper.Failure
import VirtualLooper.Yaml.Cursor

/-! # Times in documents

A document writes a day as a year of four digits, a month and a day of the month, with hyphens
between them.  A moment goes on with hours, minutes and seconds, perhaps a fraction of a second, and
perhaps the lead over universal time.  `Time.parse?` reads such a text; whether there is such a day
or moment at all shows only in `Time.value`.
-/

namespace VirtualLooper.Yaml

inductive Time
  | day (d : Date)
  | moment (m : Moment)
  deriving DecidableEq, Repr

namespace Time

def ofDigits (digits : List Char) : Nat :=
  digits.foldl (fun n c => 10 * n + (c.toNat - '0'.toNat)) 0

def digits? (least most : Nat) (cs : List Char) : Option (Nat × List Char) :=
  let digits := (cs.take most).takeWhile Char.isDigit
  if digits.length < least then none else some (ofDigits digits, cs.drop digits.length)

def past? (c : Char) (cs : List Char) : Option (List Char) :=
  if cs.head? = some c then some cs.tail else none

def isSpace (c : Char) : Bool := c = ' ' || c = '\t'

def date? (cs : List Char) : Option (Date × List Char) := do
  let (year, cs) ← digits? 4 4 cs
  let (month, cs) ← digits? 1 2 (← past? '-' cs)
  let (dayOfMonth, cs) ← digits? 1 2 (← past? '-' cs)
  return (⟨year, month, dayOfMonth⟩, cs)

/-- Takes off a text what stands between a day and the time of day. -/
def gap? : List Char → Option (List Char)
  | [] => none
  | c :: rest =>
    if c = 'T' || c = 't' then some rest
    else if isSpace c then some (rest.dropWhile isSpace)
    else none

/-- Takes the fraction of a second off a text, in microseconds.  Further digits are dropped. -/
def fraction (cs : List Char) : Nat × List Char :=
  match past? '.' cs with
  | none => (0, cs)
  | some rest =>
    let digits := rest.takeWhile Char.isDigit
    (ofDigits ((digits ++ List.replicate 6 '0').take 6), rest.drop digits.length)

/-- The minutes behind a sign, up to the end of the text: hours, and perhaps minutes. -/
def span? (cs : List Char) : Option Nat := do
  let (hours, cs) ← digits? 1 2 cs
  if cs.isEmpty then return hours * 60
  let (minutes, cs) ← digits? 2 2 (← past? ':' cs)
  if cs.isEmpty then return hours * 60 + minutes else none

/-- The lead over universal time at the end of a text, if the text goes on at all. -/
def lead? (cs : List Char) : Option (Option Int) :=
  if cs.isEmpty then some none
  else
    match cs.dropWhile isSpace with
    | ['Z'] => some (some 0)
    | '+' :: rest => (span? rest).map fun minutes => some (minutes : Int)
    | '-' :: rest => (span? rest).map fun minutes => some (-(minutes : Int))
    | _ => none

def moment? (date : Date) (cs : List Char) : Option Moment := do
  let (hour, cs) ← digits? 1 2 (← gap? cs)
  let (minute, cs) ← digits? 2 2 (← past? ':' cs)
  let (second, cs) ← digits? 2 2 (← past? ':' cs)
  let (microsecond, cs) := fraction cs
  return { date, hour, minute, second, microsecond, lead := ← lead? cs }

def parse? (cs : List Char) : Option Time := do
  let (date, cs) ← date? cs
  if cs.isEmpty then return .day date else return .moment (← moment? date cs)

def fullLength : Nat := 10

/-- The texts that imply a time: that of a day has to have all its digits. -/
def implied (cs : List Char) : Bool :=
  match parse? cs with
  | some (.day _) => cs.length = fullLength
  | some (.moment _) => true
  | none => false

def fault? : Time → Option TimePart
  | day d => d.fault?
  | moment m => m.fault?

def value (t : Time) : Except Failure Value :=
  match t.fault?, t with
  | some part, _ => .error (.outOfRange part)
  | none, day d => .ok (.date d)
  | none, moment m => .ok (.moment m)

end Time

end VirtualLooper.Yaml
