import VirtualLooper.Failure

/-! # Cursors into a document

A cursor holds the rest of a document and where that rest begins: the number of characters before
it, its line and its column.  A document may be cut: more of it follows that cannot be read.  The
scanning functions of the other modules take a cursor and return what they have read with the cursor
behind it, or fail because the document is malformed.
-/

namespace VirtualLooper.Yaml

structure Cursor where
  rest : List Char
  index : Nat
  line : Nat
  column : Nat
  /-- Does more follow behind the rest that cannot be read? -/
  cut : Bool

abbrev Scan (α : Type) := Cursor → Except Failure (α × Cursor)

def malformed {α : Type} : Except Failure α := .error .malformedDocument

def isBreak (c : Char) : Bool :=
  c = '\n' || c = '\r' || c = '\u0085' || c = '\u2028' || c = '\u2029'

/-- Does a line end here?  The end of the document counts as the end of a line. -/
def endsLine : Option Char → Bool
  | none => true
  | some c => isBreak c

def endsWord (c : Option Char) : Bool := endsLine c || c = some ' '

def isGap (c : Option Char) : Bool := endsWord c || c = some '\t'

namespace Cursor

def start (cs : List Char) (cut : Bool) : Cursor := ⟨cs, 0, 0, 0, cut⟩

def peek (c : Cursor) : Option Char := c.rest.head?

def ahead (c : Cursor) (n : Nat) : Option Char := c.rest[n]?

def sees (c : Cursor) (ch : Char) : Bool := c.peek = some ch

/-- Passes one character.  A byte order mark takes up no column. -/
def next (c : Cursor) : Cursor :=
  match c.rest with
  | [] => c
  | ch :: rest =>
    let c := { c with rest, index := c.index + 1 }
    if isBreak ch && !(ch = '\r' && rest.head? = some '\n') then
      { c with line := c.line + 1, column := 0 }
    else if ch = '\ufeff' then c
    else { c with column := c.column + 1 }

/-- Does the rest that can be read end here, though more follows? -/
def atCut (c : Cursor) : Bool := c.cut && c.rest.isEmpty

def skip : Nat → Cursor → Cursor
  | 0, c => c
  | n + 1, c => skip n c.next

def takeChars (c : Cursor) (n : Nat) : List Char × Cursor := (c.rest.take n, c.skip n)

/-- Passes the longest run of characters of a class, and returns it. -/
def takeWhile (c : Cursor) (p : Char → Bool) : List Char × Cursor :=
  c.takeChars (c.rest.takeWhile p).length

def skipWhile (c : Cursor) (p : Char → Bool) : Cursor := (c.takeWhile p).2

def skipSpaces (c : Cursor) : Cursor := c.skipWhile (· = ' ')

def skipLine (c : Cursor) : Cursor := c.skipWhile fun ch => !isBreak ch

/-- Passes a line break, if there is one, and returns what it reads as: a line feed, but for the
separators of lines and paragraphs, which stand for themselves. -/
def takeBreak (c : Cursor) : List Char × Cursor :=
  match c.rest with
  | '\r' :: '\n' :: _ => (['\n'], c.skip 2)
  | ch :: _ =>
    if ch = '\u2028' || ch = '\u2029' then ([ch], c.next)
    else if isBreak ch then (['\n'], c.next)
    else ([], c)
  | [] => ([], c)

/-- Does one of the two separators of documents begin here, on a word of its own? -/
def atSeparator (c : Cursor) : Bool :=
  (c.rest.take 3 = ['-', '-', '-'] || c.rest.take 3 = ['.', '.', '.']) && isGap (c.ahead 3)

/-- Passes the rest of a line that may hold a comment and nothing else. -/
def endLine (c : Cursor) : Except Failure Cursor :=
  let c := c.skipSpaces
  let c := if c.sees '#' then c.skipLine else c
  if endsLine c.peek then .ok c.takeBreak.2 else malformed

end Cursor

end VirtualLooper.Yaml
