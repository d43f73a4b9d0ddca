import VirtualLooper.Failure

/-! # Places of documents

The place of a document is a text: names of folders, and of the document at the end, with slashes
between them.  `Place.failure` says what comes of looking for a document at a place where there is
none.  Such a place is a folder only if it leads nowhere but upwards.
-/

namespace VirtualLooper.Scenario

/-- A place: what it begins with if it does not begin in the current folder, and its names. -/
structure Place where
  root : Text
  names : List Text

namespace Place

def slash : Glyph := .char '/'

/-- What a text begins with that does not begin in the current folder.  Two slashes are told apart
from any other number. -/
def rootOf (t : Text) : Text :=
  match (t.glyphs.takeWhile (· = slash)).length with
  | 0 => ""
  | 2 => "//"
  | _ => "/"

def here : Text := "."

def above : Text := ".."

/-- The place that a text describes.  Empty names and those of the folder itself are dropped. -/
def ofText (t : Text) : Place where
  root := rootOf t
  names :=
    ((Text.splitOn slash t.glyphs).map Text.mk).filter fun name => !name.isEmpty && name != here

def joined : List Text → Text
  | [] => ""
  | [name] => name
  | name :: rest => name ++ Text.mk [slash] ++ joined rest

def text (p : Place) : Text :=
  if p.root.isEmpty && p.names.isEmpty then here else p.root ++ joined p.names

/-! ### Texts that are no places -/

/-- Half of a surrogate pair stands for a byte of its own if it has one of these numbers. -/
def isByte (code : Nat) : Bool := 0xdc80 ≤ code && code ≤ 0xdcff

/-- Is there no way to write the code point in a name? -/
def isStray : Glyph → Bool
  | .char _ => false
  | .half code => !isByte code

/-- Is the code point half of a surrogate pair? -/
def isHalf : Glyph → Bool
  | .char _ => false
  | .half _ => true

/-- The complaint about code points that cannot be written, if there is one, the first of these
being at the given position. -/
def unencodable? : (position : Nat) → List Glyph → Option Failure
  | _, [] => none
  | position, g :: rest =>
    if isStray g then
      some (.unencodable position g.code (1 + (rest.takeWhile isHalf).length))
    else unencodable? (position + 1) rest

def byteCount : Glyph → Nat
  | .char c => c.utf8Size
  | .half _ => 1

def byteSize : List Glyph → Nat
  | [] => 0
  | g :: rest => byteCount g + byteSize rest

def nameLimit : Nat := 255

def placeLimit : Nat := 4096

/-- What comes of looking for a document at a place where there is none. -/
def failure (p : Place) : Failure :=
  match unencodable? 0 p.text.glyphs with
  | some e => e
  | none =>
    if p.text.glyphs.contains (.char '\x00') then .endedName
    else if placeLimit ≤ byteSize p.text.glyphs then .longName
    else
      match p.names.dropWhile (· = above) with
      | [] => .folder
      | name :: _ => if nameLimit < byteSize name.glyphs then .longName else .missingFile

end Place

/-- What comes of looking for a document in the place that a value names. -/
def placeFailure : Value → Failure
  | .str t => (Place.ofText t).failure
  | v => .notPath v.kind

end VirtualLooper.Scenario
