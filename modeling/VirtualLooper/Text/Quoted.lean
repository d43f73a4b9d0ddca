import VirtualLooper.Text.Basic
import VirtualLooper.Text.Printable

/-! # Quoted text

A text is shown between single quotes, unless it holds a single quote and no double quote: then
between double quotes.  The chosen quote and the backslash are escaped, as are line feed, carriage
return and tab; every other unprintable character is shown by its code point in hexadecimal, and so
is half of a surrogate pair.  Bytes are shown as the ASCII text that they encode, and those that
encode none by their numbers.
-/

namespace VirtualLooper.Text

/-- Lower-case hexadecimal with at least the given number of digits. -/
def hexadecimal (width n : Nat) : String :=
  let digits := Nat.toDigits 16 n
  String.ofList (List.replicate (width - digits.length) '0' ++ digits)

/-- The shortest of the three escapes by code point that can hold the number. -/
def codeEscape (code : Nat) : String :=
  if code < 0x100 then "\\x" ++ hexadecimal 2 code
  else if code < 0x10000 then "\\u" ++ hexadecimal 4 code
  else "\\U" ++ hexadecimal 8 code

def escape (quote : Char) : Glyph → String
  | .half code => codeEscape code
  | .char c =>
    if c = quote || c = '\\' then "\\" ++ c.toString
    else if c = '\n' then "\\n"
    else if c = '\r' then "\\r"
    else if c = '\t' then "\\t"
    else if isPrintable c then c.toString
    else codeEscape c.toNat

/-- The quote that needs the fewer escapes; the single one wins a draw. -/
def quoteFor (gs : List Glyph) : Char :=
  if gs.contains (.char '\'') && !gs.contains (.char '"') then '"' else '\''

def quoted (t : Text) : String :=
  let quote := quoteFor t.glyphs
  quote.toString ++ String.join (t.glyphs.map (escape quote)) ++ quote.toString

def asciiChar (b : UInt8) : Char := Char.ofNat b.toNat

/-- Bytes between quotes, behind the letter that tells them apart from text. -/
def quotedBytes (bs : List UInt8) : String :=
  let quote := quoteFor (bs.map fun b => .char (asciiChar b))
  let shown (b : UInt8) : String :=
    if b < 0x80 then escape quote (.char (asciiChar b)) else codeEscape b.toNat
  "b" ++ quote.toString ++ String.join (bs.map shown) ++ quote.toString

end VirtualLooper.Text
