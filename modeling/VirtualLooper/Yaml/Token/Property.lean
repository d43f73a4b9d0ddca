import VirtualLooper.Text.Digit
import VirtualLooper.Yaml.Cursor
import VirtualLooper.Yaml.Token

/-! # Anchors, tags and directives

The tokens that begin with one of the indicators `*`, `&`, `!` and `%`.
-/

namespace VirtualLooper.Yaml

def isWordChar (c : Char) : Bool := c.isAlphanum || c = '-' || c = '_'

def takeName : Scan String := fun c =>
  let (name, c) := c.takeWhile isWordChar
  if name.isEmpty then malformed else .ok (String.ofList name, c)

def endsAnchor (c : Option Char) : Bool :=
  isGap c || c.any fun ch => ['?', ':', ',', ']', '}', '%', '@', '\x60'].contains ch

def takeAnchor : Scan String := fun c => do
  let (name, c) ← takeName c.next
  if endsAnchor c.peek then return (name, c) else malformed

/-- A character that may stand in a tag as it is, or begin an escape there. -/
def isTagChar (c : Char) : Bool :=
  c.isAlphanum || "-;/?:@&=+$,_.!~*'()[]%".toList.contains c

def ofHex? (cs : List Char) : Option Nat :=
  (cs.mapM Text.hexDigit?).map fun ds => ds.foldl (fun n d => 16 * n + d) 0

def escapedBytes? : List Char → Option (List UInt8 × List Char)
  | '%' :: a :: b :: rest => do
    let byte ← ofHex? [a, b]
    let (bytes, rest) ← escapedBytes? rest
    return (byte.toUInt8 :: bytes, rest)
  | '%' :: _ => none
  | rest => some ([], rest)

/-- Replaces escaped bytes by the characters that they encode.  The first argument bounds the number
of replacements. -/
def unescapeTag? : Nat → List Char → Option (List Char)
  | 0, _ => none
  | _ + 1, [] => some []
  | bound + 1, c :: rest =>
    if c = '%' then do
      let (bytes, rest) ← escapedBytes? (c :: rest)
      let text ← String.fromUTF8? ⟨bytes.toArray⟩
      return text.toList ++ (← unescapeTag? bound rest)
    else (unescapeTag? bound rest).map (c :: ·)

def takeTagText : Scan String := fun c =>
  let (text, c) := c.takeWhile isTagChar
  match unescapeTag? (text.length + 1) text with
  | some (ch :: cs) => .ok (String.ofList (ch :: cs), c)
  | _ => malformed

/-- The handle of a tag: an exclamation mark, or a name between two of them. -/
def takeHandle : Scan String := fun c =>
  if !c.sees '!' then malformed
  else if c.ahead 1 = some ' ' then .ok ("!", c.next)
  else
    let (name, rest) := c.next.takeWhile isWordChar
    if rest.sees '!' then .ok ("!" ++ String.ofList name ++ "!", rest.next) else malformed

/-- Has the word a second exclamation mark?  Then its tag has a handle with a name. -/
def hasNamedHandle (c : Cursor) : Bool :=
  let word := (c.rest.drop 1).takeWhile fun ch => !endsWord (some ch)
  word.contains '!'

def takeTag : Scan Token := fun c => do
  let (token, c) ←
    if c.ahead 1 = some '<' then do
      let (text, c) ← takeTagText (c.skip 2)
      if c.sees '>' then pure (Token.tag none text, c.next) else malformed
    else if isGap (c.ahead 1) then pure (.tag none "!", c.next)
    else do
      let (handle, c) ← if hasNamedHandle c then takeHandle c else pure ("!", c.next)
      let (text, c) ← takeTagText c
      pure (.tag (some handle) text, c)
  if endsWord c.peek then return (token, c) else malformed

def takeNumber : Scan Nat := fun c =>
  let (digits, c) := c.takeWhile Char.isDigit
  if c.atCut then malformed
  else if Value.digitLimit < digits.length then .error (.tooManyDigits digits.length)
  else
    match (String.ofList digits).toNat? with
    | some n => .ok (n, c)
    | none => malformed

def takeVersion : Scan Directive := fun c => do
  let (major, c) ← takeNumber c.skipSpaces
  if !c.sees '.' then malformed
  else
    let (_, c) ← takeNumber c.next
    if endsWord c.peek then return (.version major, c) else malformed

def takeHandleDirective : Scan Directive := fun c => do
  let (handle, c) ← takeHandle c.skipSpaces
  if !c.sees ' ' then malformed
  else
    let (text, c) ← takeTagText c.skipSpaces
    if endsWord c.peek then return (.handle handle text, c) else malformed

def takeDirective : Scan Token := fun c => do
  let (name, c) ← takeName c.next
  if !endsWord c.peek then malformed
  else
    let (d, c) ←
      if name = "YAML" then takeVersion c
      else if name = "TAG" then takeHandleDirective c
      else pure (.other, c.skipLine)
    return (.directive d, ← c.endLine)

end VirtualLooper.Yaml
