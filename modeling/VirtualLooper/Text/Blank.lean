import VirtualLooper.Text.Basic

/-! # Blanks

Two sets of blank characters are in use.  `isBlank` is the set that is trimmed from a duration; it
holds the blanks of Unicode and the four ASCII separators U+001C to U+001F.  A number may be
surrounded by the narrower set `isNumberBlank`, which leaves those four out.
-/

namespace VirtualLooper.Text

def isWideBlank (c : Char) : Bool :=
  let n := c.toNat
  n = 0x85 || n = 0xa0 || n = 0x1680 || (0x2000 ≤ n && n ≤ 0x200a) || n = 0x2028 || n = 0x2029 ||
    n = 0x202f || n = 0x205f || n = 0x3000

def isBlank (c : Char) : Bool :=
  let n := c.toNat
  (0x09 ≤ n && n ≤ 0x0d) || (0x1c ≤ n && n ≤ 0x20) || isWideBlank c

def isNumberBlank (c : Char) : Bool :=
  let n := c.toNat
  (0x09 ≤ n && n ≤ 0x0d) || n = 0x20 || isWideBlank c

def trimBoth {α : Type} (blank : α → Bool) (xs : List α) : List α :=
  ((xs.dropWhile blank).reverse.dropWhile blank).reverse

def trim (t : Text) (blank : Char → Bool) : Text := ⟨trimBoth (Glyph.isChar blank) t.glyphs⟩

end VirtualLooper.Text
