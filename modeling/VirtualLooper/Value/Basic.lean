import VirtualLooper.Binary64.Basic
import VirtualLooper.Calendar
import VirtualLooper.Text.Basic

/-! # Values

The dynamic values of the library: tags of messages, delays and due times as a caller hands them in,
settings, and everything in a scenario.  A mapping keeps its entries in order of insertion, and a
set its members in the order in which a loop meets them.

A document can describe a list or a mapping that contains itself.  Such a collection is a cell of a
web: a list of collections whose parts are values or link to cells of the same web.
-/

namespace VirtualLooper

mutual

/-- A dynamic value. -/
inductive Value
  | none
  | bool (b : Bool)
  | int (n : Int)
  | float (x : Binary64)
  | str (t : Text)
  | bytes (bs : List UInt8)
  | date (d : Date)
  | moment (m : Moment)
  | list (xs : List Value)
  | tuple (xs : List Value)
  | dict (entries : List (Value × Value))
  | set (members : List Value)
  /-- The collection of the given number in a web. -/
  | cell (web : List Cell) (index : Nat)
  deriving Repr, Inhabited

/-- A collection in a web.  The keys of a mapping are values; a list of pairs may hold anything. -/
inductive Cell
  | list (parts : List Part)
  | dict (entries : List (Value × Part))
  | pairs (entries : List (Part × Part))
  deriving Repr

/-- A part of a collection in a web: a value, or another collection of the web, or the same one. -/
inductive Part
  | value (v : Value)
  | link (index : Nat)
  deriving Repr

end

abbrev Web := List Cell

namespace Value

inductive Kind
  | none | bool | int | float | str | bytes | date | moment | list | tuple | dict | set
  deriving DecidableEq, Repr

def Kind.name : Kind → String
  | .none => "NoneType"
  | .bool => "bool"
  | .int => "int"
  | .float => "float"
  | .str => "str"
  | .bytes => "bytes"
  | .date => "date"
  | .moment => "datetime"
  | .list => "list"
  | .tuple => "tuple"
  | .dict => "dict"
  | .set => "set"

def Kind.fullName (k : Kind) : String :=
  match k with
  | .date | .moment => "datetime." ++ k.name
  | _ => k.name

end Value

/-! ### Webs -/

/-- The collection of the given number; beyond the last one there is an empty list. -/
def Web.at (web : Web) (index : Nat) : Cell := web[index]?.getD (.list [])

namespace Cell

def kind : Cell → Value.Kind
  | list _ | pairs _ => .list
  | dict _ => .dict

def size : Cell → Nat
  | list parts => parts.length
  | dict entries => entries.length
  | pairs entries => entries.length

end Cell

def Part.inWeb (web : Web) : Part → Value
  | value v => v
  | link index => .cell web index

namespace Value

/-! ### Views -/

def kind : Value → Kind
  | none => .none
  | bool _ => .bool
  | int _ => .int
  | float _ => .float
  | str _ => .str
  | bytes _ => .bytes
  | date _ => .date
  | moment _ => .moment
  | list _ => .list
  | tuple _ => .tuple
  | dict _ => .dict
  | set _ => .set
  | cell web index => (Web.at web index).kind

/-- A value counts as true unless it is nothing, zero or empty. -/
def truthy : Value → Bool
  | none => false
  | bool b => b
  | int n => n != 0
  | float x => x.isNonzero
  | str t => !t.isEmpty
  | bytes bs => !bs.isEmpty
  | date _ | moment _ => true
  | list xs => !xs.isEmpty
  | tuple xs => !xs.isEmpty
  | dict entries => !entries.isEmpty
  | set members => !members.isEmpty
  | cell web index => (Web.at web index).size != 0

/-- Truth values, integers and floats are numbers. -/
def isNumber : Value → Bool
  | bool _ | int _ | float _ => true
  | _ => false

/-- Where a number lies among all numbers; a truth value counts as zero or one. -/
def place? : Value → Option Binary64.Place
  | bool b => some (.ofInt (if b then 1 else 0))
  | int n => some (.ofInt n)
  | float x => x.place?
  | _ => Option.none

def entries? : Value → Option (List (Value × Value))
  | dict entries => some entries
  | cell web index =>
    match Web.at web index with
    | .dict entries => some (entries.map fun e => (e.1, e.2.inWeb web))
    | .list _ | .pairs _ => Option.none
  | _ => Option.none

/-- The elements that a loop over a value meets: the characters of a text, the keys of a mapping. -/
def elements? : Value → Option (List Value)
  | list xs | tuple xs | set xs => some xs
  | str t => some (t.glyphs.map fun g => str ⟨[g]⟩)
  | bytes bs => some (bs.map fun b => int b.toNat)
  | dict entries => some (entries.map (·.1))
  | cell web index =>
    match Web.at web index with
    | .list parts => some (parts.map (·.inWeb web))
    | .dict entries => some (entries.map (·.1))
    | .pairs entries => some (entries.map fun e => tuple [e.1.inWeb web, e.2.inWeb web])
  | _ => Option.none

mutual

/-- The kind of the first part of a value that cannot serve as a key, if there is one. -/
def unhashable? : Value → Option Kind
  | list _ => some .list
  | dict _ => some .dict
  | set _ => some .set
  | cell web index => some (Web.at web index).kind
  | tuple xs => firstUnhashable? xs
  | _ => Option.none

def firstUnhashable? : List Value → Option Kind
  | [] => Option.none
  | x :: xs => (unhashable? x).or (firstUnhashable? xs)

end

/-! ### Sets -/

/-- The number of places for so many members of a set: a power of two. -/
def placeCount (members : Nat) : Nat :=
  if members < 5 then 8 else Nat.pow 2 (Nat.log2 (2 * members) + 1)

/-- The place of an integer among so many; the integer in front of zero has that of the one in front
of itself. -/
def placeAmong (count : Nat) : Value → Option Nat
  | int n => some ((if n = -1 then -2 else n) % count).toNat
  | _ => Option.none

/-- The set of these values, no two of which are equal.  Integers come in order of their places;
otherwise the order is the given one. -/
def ofMembers (xs : List Value) : Value :=
  match xs.mapM (placeAmong (placeCount xs.length)) with
  | some places => set (((places.zip xs).mergeSort fun a b => a.1 ≤ b.1).map (·.2))
  | Option.none => set xs

end Value

end VirtualLooper
