import VirtualLooper.Binary64.Shortest
import VirtualLooper.Text.Quoted
import VirtualLooper.Value.Basic

/-! # The text of a value

`written` is the form from which a value can be told apart from all others: texts are quoted, floats
always show a point or an exponent.  `shown` is the same but for a bare text, which stands for
itself, and a bare day or moment.  A collection inside itself is shown by dots.
-/

namespace VirtualLooper

/-! ### Collections of a web -/

/-- How a part of a collection is written: by a text, or by a collection of the web between what
leads up to it and what follows. -/
inductive Piece
  | whole (text : String)
  | link (lead : String) (index : Nat) (trail : String)

def Piece.between (left right : String) : Piece → Piece
  | whole text => whole (left ++ text ++ right)
  | link lead index trail => link (left ++ lead) index (trail ++ right)

/-- How a collection of a web is written: the brackets, and the pieces between them. -/
structure Outline where
  left : String
  right : String
  pieces : List Piece

/-- The text of a collection of a web, inside others of the given numbers. -/
def Outline.fill (web : List Outline) : (bound : Nat) → (around : List Nat) → Nat → String
  | 0, _, _ => ""
  | bound + 1, around, i =>
    match web[i]? with
    | none => ""
    | some o =>
      let inside :=
        if around.contains i then "..."
        else ", ".intercalate <| o.pieces.map fun
          | .whole text => text
          | .link lead j trail => lead ++ fill web bound (i :: around) j ++ trail
      o.left ++ inside ++ o.right

namespace Value

mutual

/-- The text that tells a value apart from every other. -/
def written : Value → String
  | none => "None"
  | bool b => if b then "True" else "False"
  | int n => toString n
  | float x => x.text
  | str t => t.quoted
  | bytes bs => Text.quotedBytes bs
  | date d => d.written
  | moment m => m.written
  | list xs => "[" ++ ", ".intercalate (writtenElements xs) ++ "]"
  | tuple [x] => "(" ++ written x ++ ",)"
  | tuple xs => "(" ++ ", ".intercalate (writtenElements xs) ++ ")"
  | dict entries => "\x7b" ++ ", ".intercalate (writtenEntries entries) ++ "\x7d"
  | set [] => "set()"
  | set members => "\x7b" ++ ", ".intercalate (writtenElements members) ++ "\x7d"
  | cell web index => Outline.fill (outlines web) (web.length + 1) [] index

def writtenElements : List Value → List String
  | [] => []
  | x :: xs => written x :: writtenElements xs

def writtenEntries : List (Value × Value) → List String
  | [] => []
  | (k, v) :: rest => (written k ++ ": " ++ written v) :: writtenEntries rest

def outlines : Web → List Outline
  | [] => []
  | .list ps :: rest => ⟨"[", "]", partPieces ps⟩ :: outlines rest
  | .dict es :: rest => ⟨"\x7b", "\x7d", entryPieces es⟩ :: outlines rest
  | .pairs es :: rest => ⟨"[", "]", pairPieces es⟩ :: outlines rest

def partPieces : List Part → List Piece
  | [] => []
  | p :: rest => partPiece p :: partPieces rest

def entryPieces : List (Value × Part) → List Piece
  | [] => []
  | (k, p) :: rest => (partPiece p).between (written k ++ ": ") "" :: entryPieces rest

def pairPieces : List (Part × Part) → List Piece
  | [] => []
  | (a, b) :: rest =>
    (partPiece a).between "(" "" :: (partPiece b).between "" ")" :: pairPieces rest

def partPiece : Part → Piece
  | .value v => .whole (written v)
  | .link i => .link "" i ""

end

/-- The text of a value for a reader. -/
def shown : Value → Text
  | str t => t
  | date d => d.text
  | moment m => m.text
  | v => v.written

/-! ### Integers too long to write -/

/-- The most decimal digits that an integer may have to be written. -/
def digitLimit : Nat := 4300

def isShort (n : Int) : Bool := n.natAbs < Nat.pow 10 digitLimit

/-- What of a collection in a web tells whether its text can be written: are the integers among its
own values short enough, and which collections does it link to? -/
structure Sketch where
  short : Bool
  links : List Nat

def Sketch.beside (a b : Sketch) : Sketch := ⟨a.short && b.short, a.links ++ b.links⟩

/-- Are all integers short enough in the collections of the given numbers, and in those that can be
reached from them, but for those that have been seen? -/
def Sketch.areShort (web : List Sketch) : (bound : Nat) → (seen waiting : List Nat) → Bool
  | 0, _, _ => true
  | _, _, [] => true
  | bound + 1, seen, i :: waiting =>
    match web[i]?, seen.contains i with
    | some sketch, false =>
      sketch.short && areShort web bound (i :: seen) (sketch.links ++ waiting)
    | _, _ => areShort web bound seen waiting

/-- Are all integers short enough in a collection and in what it leads to?  Every link is followed
at most once. -/
def Sketch.isShortFrom (web : List Sketch) (i : Nat) : Bool :=
  areShort web (web.foldl (fun n sketch => n + sketch.links.length) 1) [] [i]

mutual

def isWritable : Value → Bool
  | int n => isShort n
  | list xs | tuple xs | set xs => areWritable xs
  | dict entries => areEntriesWritable entries
  | cell web index => Sketch.isShortFrom (sketches web) index
  | _ => true

def areWritable : List Value → Bool
  | [] => true
  | x :: xs => isWritable x && areWritable xs

def areEntriesWritable : List (Value × Value) → Bool
  | [] => true
  | (k, v) :: rest => isWritable k && isWritable v && areEntriesWritable rest

def sketches : Web → List Sketch
  | [] => []
  | .list ps :: rest => partsSketch ps :: sketches rest
  | .dict es :: rest => entriesSketch es :: sketches rest
  | .pairs es :: rest => pairsSketch es :: sketches rest

def partsSketch : List Part → Sketch
  | [] => ⟨true, []⟩
  | p :: rest => (partSketch p).beside (partsSketch rest)

def entriesSketch : List (Value × Part) → Sketch
  | [] => ⟨true, []⟩
  | (k, p) :: rest =>
    (Sketch.mk (isWritable k) []).beside ((partSketch p).beside (entriesSketch rest))

def pairsSketch : List (Part × Part) → Sketch
  | [] => ⟨true, []⟩
  | (a, b) :: rest => (partSketch a).beside ((partSketch b).beside (pairsSketch rest))

def partSketch : Part → Sketch
  | .value v => ⟨isWritable v, []⟩
  | .link i => ⟨true, [i]⟩

end

end Value

end VirtualLooper
