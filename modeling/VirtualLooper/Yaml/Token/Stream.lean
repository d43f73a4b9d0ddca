import VirtualLooper.Yaml.Token.Scalar

/-! # The tokens of a document

`Token.scan` splits a document into tokens.  Outside flow collections, indentation opens and closes
block collections.  That something is the key of a mapping shows only when the `:` behind it is met;
so the place of each token that could begin a simple key is remembered, and the tokens for the key
are put in there afterwards.  A simple key has to end on its line, within 1024 characters.

A scan that fails yields the tokens in front of the failure, because something may be wrong with
these already.  A token that could still turn out to begin a key is held back, as are those behind
it.
-/

namespace VirtualLooper.Yaml

structure PossibleKey where
  /-- The flow collections around it. -/
  flow : Nat
  /-- The number of tokens in front of it. -/
  token : Nat
  /-- Does the token stand where a block mapping expects a key? -/
  required : Bool
  index : Nat
  line : Nat
  column : Nat

structure Lexer where
  cursor : Cursor
  /-- The tokens so far, the last one first. -/
  tokens : List Token
  count : Nat
  /-- The number of flow collections around the cursor. -/
  flow : Nat
  /-- The column of the innermost block collection; `-1` outside all. -/
  indent : Int
  /-- The columns of the block collections around that one. -/
  indents : List Int
  /-- May a simple key begin here? -/
  keyAllowed : Bool
  keys : List PossibleKey

namespace Lexer

def start (cs : List Char) (cut : Bool) : Lexer :=
  { cursor := .start cs cut, tokens := [], count := 0, flow := 0, indent := -1, indents := [],
    keyAllowed := true, keys := [] }

def inBlock (l : Lexer) : Bool := l.flow = 0

def column (l : Lexer) : Int := l.cursor.column

def emit (l : Lexer) (t : Token) : Lexer :=
  { l with tokens := t :: l.tokens, count := l.count + 1 }

def insert (l : Lexer) (position : Nat) (t : Token) : Lexer :=
  let behind := l.count - position
  { l with tokens := l.tokens.take behind ++ t :: l.tokens.drop behind, count := l.count + 1 }

def allowKey (l : Lexer) (allowed : Bool) : Lexer := { l with keyAllowed := allowed }

def skip (l : Lexer) (n : Nat) : Lexer := { l with cursor := l.cursor.skip n }

/-! ### Simple keys -/

def key? (l : Lexer) : Option PossibleKey := l.keys.find? (·.flow = l.flow)

def otherKeys (l : Lexer) : List PossibleKey := l.keys.filter (·.flow ≠ l.flow)

def dropKey (l : Lexer) : Except Failure Lexer :=
  if l.key?.any (·.required) then malformed else .ok { l with keys := l.otherKeys }

def saveKey (l : Lexer) : Except Failure Lexer :=
  if l.keyAllowed then do
    let l ← l.dropKey
    let key : PossibleKey :=
      { flow := l.flow, token := l.count, required := l.inBlock && l.indent = l.column,
        index := l.cursor.index, line := l.cursor.line, column := l.cursor.column }
    return { l with keys := key :: l.keys }
  else .ok l

def isFresh (l : Lexer) (k : PossibleKey) : Bool :=
  k.line = l.cursor.line && l.cursor.index - k.index ≤ 1024

def dropStale (l : Lexer) : Except Failure Lexer :=
  if l.keys.any fun k => k.required && !l.isFresh k then malformed
  else .ok { l with keys := l.keys.filter l.isFresh }

/-! ### Indentation -/

def unwindFrom (column : Int) : List Int → Lexer → Lexer
  | outer :: rest, l =>
    if column < l.indent then
      unwindFrom column rest { l.emit .blockEnd with indent := outer, indents := rest }
    else l
  | [], l => l

/-- Ends the block collections that are indented beyond a column.  Inside flow collections
indentation has no meaning. -/
def unwind (l : Lexer) (column : Int) : Lexer :=
  if l.inBlock then unwindFrom column l.indents l else l

/-- Begins a block collection at a column if none begins there yet.  Its first token goes behind so
many others. -/
def indentAt (l : Lexer) (column : Int) (position : Nat) (t : Token) : Lexer :=
  if l.indent < column then
    { l.insert position t with indent := column, indents := l.indent :: l.indents }
  else l

/-! ### Tokens -/

def finish (l : Lexer) : Except Failure Lexer := do
  let l ← (l.unwind (-1)).dropKey
  return (l.allowKey false).emit .streamEnd

def takeDirective (l : Lexer) : Except Failure Lexer := do
  let l ← (l.unwind (-1)).dropKey
  let (t, cursor) ← Yaml.takeDirective l.cursor
  return { l.allowKey false with cursor }.emit t

def takeSeparator (l : Lexer) (t : Token) : Except Failure Lexer := do
  let l ← (l.unwind (-1)).dropKey
  return ((l.allowKey false).skip 3).emit t

def openFlow (l : Lexer) (t : Token) : Except Failure Lexer := do
  let l ← l.saveKey
  return (({ l with flow := l.flow + 1 }.allowKey true).skip 1).emit t

def closeFlow (l : Lexer) (t : Token) : Except Failure Lexer := do
  let l ← l.dropKey
  if l.flow = 0 then malformed
  else return (({ l with flow := l.flow - 1 }.allowKey false).skip 1).emit t

def takeFlowEntry (l : Lexer) : Except Failure Lexer := do
  let l ← (l.allowKey true).dropKey
  return (l.skip 1).emit .flowEntry

def takeBlockEntry (l : Lexer) : Except Failure Lexer := do
  if l.inBlock && !l.keyAllowed then malformed
  else
    let l := if l.inBlock then l.indentAt l.column l.count .blockSequence else l
    let l ← (l.allowKey true).dropKey
    return (l.skip 1).emit .blockEntry

def takeKey (l : Lexer) : Except Failure Lexer := do
  if l.inBlock && !l.keyAllowed then malformed
  else
    let l := if l.inBlock then l.indentAt l.column l.count .blockMapping else l
    let l ← (l.allowKey l.inBlock).dropKey
    return (l.skip 1).emit .key

/-- A value; where a simple key was possible, what stands before it turns out to be one. -/
def takeValue (l : Lexer) : Except Failure Lexer := do
  match l.key? with
  | some k =>
    let l := { l with keys := l.otherKeys }.insert k.token .key
    let l := if l.inBlock then l.indentAt k.column k.token .blockMapping else l
    return ((l.allowKey false).skip 1).emit .value
  | none =>
    if l.inBlock && !l.keyAllowed then malformed
    else
      let l := if l.inBlock then l.indentAt l.column l.count .blockMapping else l
      let l ← (l.allowKey l.inBlock).dropKey
      return (l.skip 1).emit .value

/-- A token that could begin a simple key, read by a scanning function. -/
def takeWith (l : Lexer) (scan : Scan Token) : Except Failure Lexer := do
  let l ← l.saveKey
  let (t, cursor) ← scan l.cursor
  return { l.allowKey false with cursor }.emit t

def takeBlock (l : Lexer) (folded : Bool) : Except Failure Lexer := do
  let l ← (l.allowKey true).dropKey
  let (t, cursor) ← Yaml.takeBlock folded l.indent l.cursor
  return { l with cursor }.emit t

/-- A plain scalar.  If it ends with a line break, a simple key may follow. -/
def takePlain (l : Lexer) : Except Failure Lexer := do
  let l ← l.saveKey
  let (t, broken, cursor) := Yaml.takePlain (!l.inBlock) l.indent l.cursor
  return { l.allowKey broken with cursor }.emit t

/-- Passes blanks, comments and line breaks.  Outside flow collections a simple key may begin after
a line break. -/
def skipGap : (bound : Nat) → Lexer → Lexer
  | 0, l => l
  | bound + 1, l =>
    let c := l.cursor.skipSpaces
    let c := if c.sees '#' then c.skipLine else c
    let l := { l with cursor := c }
    if c.peek.any isBreak then
      skipGap bound { l.allowKey (l.keyAllowed || l.inBlock) with cursor := c.takeBreak.2 }
    else l

def skipMark (l : Lexer) : Lexer :=
  if l.cursor.index = 0 && l.cursor.sees '\ufeff' then l.skip 1 else l

def isIndicator (c : Char) : Bool := "-?:,[]{}#&*!|>'\"%@\x60".toList.contains c

def startsPlain (l : Lexer) (ch : Char) : Bool :=
  (!isGap (some ch) && !isIndicator ch) ||
    (!isGap (l.cursor.ahead 1) && (ch = '-' || (l.inBlock && (ch = '?' || ch = ':'))))

def takeToken (l : Lexer) (ch : Char) : Except Failure Lexer :=
  let atGap := isGap (l.cursor.ahead 1)
  let lineStart : Bool := l.cursor.column = 0
  if ch = '%' && lineStart then l.takeDirective
  else if ch = '-' && lineStart && l.cursor.atSeparator then l.takeSeparator .documentStart
  else if ch = '.' && lineStart && l.cursor.atSeparator then l.takeSeparator .documentEnd
  else if ch = '[' then l.openFlow .flowSequence
  else if ch = '{' then l.openFlow .flowMapping
  else if ch = ']' then l.closeFlow .flowSequenceEnd
  else if ch = '}' then l.closeFlow .flowMappingEnd
  else if ch = ',' then l.takeFlowEntry
  else if ch = '-' && atGap then l.takeBlockEntry
  else if ch = '?' && (!l.inBlock || atGap) then l.takeKey
  else if ch = ':' && (!l.inBlock || atGap) then l.takeValue
  else if ch = '*' then l.takeWith fun c => do
    let (name, c) ← takeAnchor c
    return (.alias name, c)
  else if ch = '&' then l.takeWith fun c => do
    let (name, c) ← takeAnchor c
    return (.anchor name, c)
  else if ch = '!' then l.takeWith takeTag
  else if ch = '|' && l.inBlock then l.takeBlock false
  else if ch = '>' && l.inBlock then l.takeBlock true
  else if ch = '\'' then l.takeWith (takeQuoted false)
  else if ch = '"' then l.takeWith (takeQuoted true)
  else if l.startsPlain ch then l.takePlain
  else malformed

/-- Reads the next token; the result says whether it is the last one.  The bound has to be larger
than the number of characters that are left. -/
def step (bound : Nat) (l : Lexer) : Except Failure (Lexer × Bool) := do
  let l := skipGap bound l.skipMark
  let l ← l.dropStale
  let l := l.unwind l.column
  match l.cursor.peek with
  | none => return (← l.finish, true)
  | some ch => return (← l.takeToken ch, false)

/-- The tokens that are certain to be followed by nothing but what the rest of the document adds. -/
def released (l : Lexer) : List Token :=
  match ((l.keys.filter l.isFresh).map (·.token)).min? with
  | some held => l.tokens.reverse.take held
  | none => l.tokens.reverse

end Lexer

structure Scanned where
  tokens : List Token
  failure : Option Failure

/-- Reads tokens up to the end.  Every token but the last is at least one character long. -/
def Lexer.run : (bound : Nat) → Lexer → Scanned
  | 0, l => ⟨l.released, some .malformedDocument⟩
  | bound + 1, l =>
    match l.step (bound + 1) with
    | .error e => ⟨l.released, some e⟩
    | .ok (l, true) => ⟨l.tokens.reverse, none⟩
    | .ok (l, false) => run bound l

def Token.scan (cs : List Char) (cut : Bool) : Scanned :=
  Lexer.run (cs.length + 1) (.start cs cut)

end VirtualLooper.Yaml
