import VirtualLooper.Yaml.Token.Property

/-! # Scalars

The text of the five styles of scalars: plain, between single or double quotes, literal and folded.
In all but the literal style a single line break between two lines of text reads as a space, and
each further one as itself.
-/

namespace VirtualLooper.Yaml

/-- How a gap of line breaks in running text reads: the first break, and those after it. -/
def foldBreaks (first : List Char) (others : List (List Char)) : List Char :=
  (if first ≠ ['\n'] then first else if others.isEmpty then [' '] else []) ++ others.flatten

/-! ### Quoted scalars -/

/-- Line breaks inside quotes, with the blanks in front of the next text.  No separator of documents
may stand at the beginning of a line. -/
def quotedBreaks : (bound : Nat) → Scan (List (List Char))
  | 0, _ => malformed
  | bound + 1, c =>
    if c.atSeparator then malformed
    else
      let c := c.skipWhile fun ch => ch = ' ' || ch = '\t'
      if c.peek.any isBreak then do
        let (first, c) := c.takeBreak
        let (others, c) ← quotedBreaks bound c
        return (first :: others, c)
      else .ok ([], c)

/-- A gap inside quotes: blanks stand for themselves unless a line ends with them. -/
def quotedGap : Scan (List Char) := fun c =>
  let (blanks, c) := c.takeWhile fun ch => ch = ' ' || ch = '\t'
  match c.peek with
  | none => malformed
  | some ch =>
    if isBreak ch then do
      let (first, c) := c.takeBreak
      let (others, c) ← quotedBreaks (c.rest.length + 1) c
      return (foldBreaks first others, c)
    else .ok (blanks, c)

def letterEscapes : List (Char × Char) :=
  [('0', '\x00'), ('a', '\x07'), ('b', '\x08'), ('t', '\t'), ('\t', '\t'), ('n', '\n'),
   ('v', '\x0b'), ('f', '\x0c'), ('r', '\r'), ('e', '\x1b'), (' ', ' '), ('"', '"'),
   ('\\', '\\'), ('/', '/'), ('N', '\u0085'), ('_', '\u00a0'), ('L', '\u2028'), ('P', '\u2029')]

def codeLength? : Char → Option Nat
  | 'x' => some 2
  | 'u' => some 4
  | 'U' => some 8
  | _ => none

/-- The code point of a number.  Beyond the last code point there is none. -/
def glyphOf (code : Nat) : Except Failure Glyph :=
  if code.isValidChar then .ok (.char (Char.ofNat code))
  else if code < 0x110000 then .ok (.half code)
  else .error (.noCharacter code)

/-- An escape, behind its backslash.  An escaped line break stands for nothing. -/
def takeEscape : Scan (List Glyph) := fun c =>
  match c.peek with
  | none => malformed
  | some ch =>
    match letterEscapes.find? (·.1 = ch), codeLength? ch with
    | some (_, meant), _ => .ok ([.char meant], c.next)
    | none, some length => do
      let (digits, c) := c.next.takeChars length
      match ofHex? digits with
      | some code => if digits.length = length then return ([← glyphOf code], c) else malformed
      | none => malformed
    | none, none =>
      if isBreak ch then do
        let c := c.takeBreak.2
        let (breaks, c) ← quotedBreaks (c.rest.length + 1) c
        return (breaks.flatten.map .char, c)
      else malformed

def quotedText (double : Bool) : (bound : Nat) → Scan (List Glyph)
  | 0, _ => malformed
  | bound + 1, c => do
    let quote := if double then '"' else '\''
    match c.peek with
    | none => malformed
    | some ch =>
      if ch = quote then
        if !double && c.ahead 1 = some '\'' then
          let (text, c) ← quotedText double bound (c.skip 2)
          return (.char '\'' :: text, c)
        else return ([], c.next)
      else if double && ch = '\\' then
        let (part, c) ← takeEscape c.next
        let (text, c) ← quotedText double bound c
        return (part ++ text, c)
      else if isGap (some ch) then
        let (part, c) ← quotedGap c
        let (text, c) ← quotedText double bound c
        return (part.map .char ++ text, c)
      else
        let (text, c) ← quotedText double bound c.next
        return (.char ch :: text, c)

def takeQuoted (double : Bool) : Scan Token := fun c => do
  let (text, c) ← quotedText double (c.rest.length + 1) c.next
  return (.scalar ⟨text⟩ false, c)

/-! ### Block scalars -/

inductive Chomping
  | strip | clip | keep
  deriving DecidableEq, Repr

def chomping? : Option Char → Option Chomping
  | some '+' => some .keep
  | some '-' => some .strip
  | _ => none

def takeIndentation : Scan (Option Nat) := fun c =>
  match c.peek.bind fun ch => if ch.isDigit then some (ch.toNat - '0'.toNat) else none with
  | none => .ok (none, c)
  | some 0 => malformed
  | some n => .ok (some n, c.next)

/-- The header of a block scalar: chomping and indentation, in either order, each optional. -/
def takeHeader : Scan (Chomping × Option Nat) := fun c => do
  match chomping? c.peek with
  | some chomping =>
    let (indentation, c) ← takeIndentation c.next
    ended (chomping, indentation) c
  | none =>
    let (indentation, c) ← takeIndentation c
    match indentation, chomping? c.peek with
    | some _, some chomping => ended (chomping, indentation) c.next
    | _, _ => ended (.clip, indentation) c
where
  ended (header : Chomping × Option Nat) : Scan (Chomping × Option Nat) := fun c =>
    if endsWord c.peek then (c.endLine).map (header, ·) else malformed

def skipIndent (indent : Nat) (c : Cursor) : Cursor :=
  c.skip (min (indent - c.column) (c.rest.takeWhile (· = ' ')).length)

/-- The blank lines in front of a block scalar without indentation of its own: their breaks, and the
greatest column that their spaces reach. -/
def leadingBlank : (bound : Nat) → Cursor → List (List Char) × Nat × Cursor
  | 0, c => ([], 0, c)
  | bound + 1, c =>
    let c := c.skipSpaces
    let reached := c.column
    if c.peek.any isBreak then
      let (first, c) := c.takeBreak
      let (others, column, c) := leadingBlank bound c
      (first :: others, max reached column, c)
    else ([], reached, c)

def blockBreaks (indent : Nat) : (bound : Nat) → Cursor → List (List Char) × Cursor
  | 0, c => ([], c)
  | bound + 1, c =>
    let c := skipIndent indent c
    if c.peek.any isBreak then
      let (first, c) := c.takeBreak
      let (others, c) := blockBreaks indent bound c
      (first :: others, c)
    else ([], c)

def inBlock (indent : Nat) (c : Cursor) : Bool := c.column = indent && c.peek.isSome

def startsFlush (c : Cursor) : Bool := !c.peek.any fun ch => ch = ' ' || ch = '\t'

/-- The lines of a block scalar: its text, and the breaks behind its last line. -/
def blockLines (folded : Bool) (indent : Nat) :
    (bound : Nat) → (breaks : List (List Char)) → Cursor →
      List Char × List Char × List (List Char) × Cursor
  | 0, breaks, c => ([], [], breaks, c)
  | bound + 1, breaks, c =>
    if !inBlock indent c then ([], [], breaks, c)
    else
      let flush := startsFlush c
      let (line, c) := c.takeWhile fun ch => !isBreak ch
      let (lineBreak, c) := c.takeBreak
      let (next, c) := blockBreaks indent (bound + 1) c
      let text := breaks.flatten ++ line
      if inBlock indent c then
        let joint :=
          if folded && lineBreak = ['\n'] && flush && startsFlush c then
            if next.isEmpty then [' '] else []
          else lineBreak
        let (more, last, trailing, c) := blockLines folded indent bound next c
        (text ++ joint ++ more, last, trailing, c)
      else (text, lineBreak, next, c)

def chomp (chomping : Chomping) (text last : List Char) (trailing : List (List Char)) : List Char :=
  match chomping with
  | .strip => text
  | .clip => text ++ last
  | .keep => text ++ last ++ trailing.flatten

/-- A literal or folded scalar inside a collection of the given indentation. -/
def takeBlock (folded : Bool) (parent : Int) : Scan Token := fun c => do
  let ((chomping, indentation), c) ← takeHeader c.next
  let least := max (parent + 1) 1
  let (indent, breaks, c) :=
    match indentation with
    | some n =>
      let indent := (least + n - 1).toNat
      let (breaks, c) := blockBreaks indent (c.rest.length + 1) c
      (indent, breaks, c)
    | none =>
      let (breaks, reached, c) := leadingBlank (c.rest.length + 1) c
      (max least.toNat reached, breaks, c)
  let (text, last, trailing, c) := blockLines folded indent (c.rest.length + 1) breaks c
  return (.scalar (.ofChars (chomp chomping text last trailing)) false, c)

/-! ### Plain scalars -/

def isFlowIndicator (c : Char) : Bool := [',', '[', ']', '{', '}'].contains c

def plainStops (flow : Bool) : List Char → Bool
  | [] => true
  | ch :: rest =>
    isGap (some ch) ||
      (ch = ':' && (isGap rest.head? || (flow && rest.head?.any isFlowIndicator))) ||
      (flow && (ch = '?' || isFlowIndicator ch))

def plainLength (flow : Bool) : List Char → Nat
  | [] => 0
  | ch :: rest => if plainStops flow (ch :: rest) then 0 else plainLength flow rest + 1

/-- Further line breaks in a plain scalar, with spaces between them; none if a separator of
documents follows one. -/
def plainBreaks : (bound : Nat) → Cursor → Option (List (List Char)) × Cursor
  | 0, c => (some [], c)
  | bound + 1, c =>
    if c.sees ' ' then plainBreaks bound c.next
    else if c.peek.any isBreak then
      let (first, c) := c.takeBreak
      if c.atSeparator then (none, c)
      else
        let (others, c) := plainBreaks bound c
        (others.map (first :: ·), c)
    else (some [], c)

/-- The gap after a part of a plain scalar: what it reads as if more text follows, and whether it
holds a line break.  It reads as nothing where the scalar cannot go on. -/
def plainGap (c : Cursor) : List Char × Bool × Cursor :=
  let (blanks, c) := c.takeWhile (· = ' ')
  if c.peek.any isBreak then
    let (first, c) := c.takeBreak
    if c.atSeparator then ([], true, c)
    else
      match plainBreaks (c.rest.length + 1) c with
      | (some others, c) => (foldBreaks first others, true, c)
      | (none, c) => ([], true, c)
  else (blanks, false, c)

/-- The text of a plain scalar, and whether it ends with a line break. -/
def plainText (flow : Bool) (indent : Int) :
    (bound : Nat) → (gap : List Char) → (broken : Bool) → Cursor → List Char × Bool × Cursor
  | 0, _, broken, c => ([], broken, c)
  | bound + 1, gap, broken, c =>
    let length := plainLength flow c.rest
    if c.sees '#' || length = 0 then ([], broken, c)
    else
      let (part, c) := c.takeChars length
      let (next, nextBroken, c) := plainGap c
      let text := gap ++ part
      if next.isEmpty || c.sees '#' || (!flow && (c.column : Int) < indent) then
        (text, nextBroken, c)
      else
        let (more, broken, c) := plainText flow indent bound next nextBroken c
        (text ++ more, broken, c)

/-- A plain scalar inside a collection of the given indentation; the second result says whether a
line break was passed at its end. -/
def takePlain (flow : Bool) (parent : Int) (c : Cursor) : Token × Bool × Cursor :=
  let (text, broken, c) := plainText flow (parent + 1) (c.rest.length + 1) [] false c
  (.scalar (.ofChars text) true, broken, c)

end VirtualLooper.Yaml
