import VirtualLooper.Text.Basic
import VirtualLooper.Text.Case

/-! # Lower case

Every capital letter becomes its small one.  Two letters are special: the capital I with a dot
becomes a small i and a combining dot, and the capital sigma has a form of its own at the end of a
word, that is, behind a letter with case and not in front of one.
-/

namespace VirtualLooper.Text

/-- Is the first code point that is not passed over a letter with case? -/
def meetsCased (gs : List Glyph) : Bool :=
  (gs.find? fun g => !isCaseIgnorable g.code).any fun g => isCased g.code

/-- The small letter of a code point in its place: what comes before it, the nearest first, and what
comes after it. -/
def lowerGlyph (before : List Glyph) (g : Glyph) (after : List Glyph) : List Glyph :=
  match g with
  | .half code => [.half code]
  | .char 'İ' => [.char 'i', .char '\u0307']
  | .char 'Σ' => [.char (if meetsCased before && !meetsCased after then 'ς' else 'σ')]
  | .char c => [.char (Char.ofNat (smallCode c.toNat))]

/-- The small letters of code points, given what comes before them, the nearest first. -/
def lowerFrom (before : List Glyph) : List Glyph → List Glyph
  | [] => []
  | g :: rest => lowerGlyph before g rest ++ lowerFrom (g :: before) rest

def lowered (t : Text) : Text := ⟨lowerFrom [] t.glyphs⟩

end VirtualLooper.Text
