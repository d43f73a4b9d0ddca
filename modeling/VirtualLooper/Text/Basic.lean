/-! # Texts

A text is a sequence of code points of Unicode.  Nearly all code points are characters.  The others
are the halves of surrogate pairs, for which no character stands; a document can still write one of
them by its number, so a text may hold them.
-/

namespace VirtualLooper

/-- A code point: a character, or half of a surrogate pair. -/
inductive Glyph
  | char (c : Char)
  | half (code : Nat)
  deriving DecidableEq, Repr

namespace Glyph

def code : Glyph → Nat
  | char c => c.toNat
  | half code => code

/-- The character of a code point.  What stands for half of a pair is the replacement character,
which is no part of any number or word. -/
def toChar : Glyph → Char
  | char c => c
  | half _ => '\ufffd'

def isChar (p : Char → Bool) : Glyph → Bool
  | char c => p c
  | half _ => false

end Glyph

structure Text where
  glyphs : List Glyph
  deriving DecidableEq, Repr, Inhabited

namespace Text

def ofChars (cs : List Char) : Text := ⟨cs.map .char⟩

def ofString (s : String) : Text := ofChars s.toList

instance : Coe String Text := ⟨ofString⟩

instance : Append Text := ⟨fun s t => ⟨s.glyphs ++ t.glyphs⟩⟩

/-- The characters of a text, with a replacement for each half of a pair. -/
def chars (t : Text) : List Char := t.glyphs.map Glyph.toChar

/-- The text as a string, with a replacement for each half of a pair. -/
def asString (t : Text) : String := String.ofList t.chars

def isEmpty (t : Text) : Bool := t.glyphs.isEmpty

/-- The order of texts is that of the numbers of their code points. -/
def before (s t : Text) : Bool := s.glyphs.map Glyph.code < t.glyphs.map Glyph.code

def before? (ending : String) (t : Text) : Option Text :=
  let last := (ofString ending).glyphs
  if last.isSuffixOf t.glyphs then some ⟨t.glyphs.take (t.glyphs.length - last.length)⟩ else none

def splitOn {α : Type} [DecidableEq α] (sep : α) : List α → List (List α)
  | [] => [[]]
  | c :: rest =>
    if c = sep then [] :: splitOn sep rest
    else
      match splitOn sep rest with
      | part :: parts => (c :: part) :: parts
      | [] => [[c]]

@[simp]
theorem chars_ofChars (cs : List Char) : (ofChars cs).chars = cs := by
  simp [ofChars, chars, Glyph.toChar, Function.comp_def]

@[simp]
theorem asString_ofString (s : String) : (ofString s).asString = s := by
  simp [asString, ofString]

end Text

end VirtualLooper
