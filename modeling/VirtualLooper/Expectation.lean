import VirtualLooper.Value.Equality
import VirtualLooper.Failure

/-! # Expectations about deliveries

Checks of the tags that a recording receiver has received, in order.  A check that fails carries all
of these tags.  Its text shows them too, and what was expected: if one of these cannot be written,
the check fails for that reason and carries nothing.
-/

namespace VirtualLooper

/-- What a test expects of the delivered tags. -/
inductive Expectation
  /-- Exactly these tags, in this order. -/
  | sequence (tags : List Value)
  | nothing
  /-- This tag not at all. -/
  | never (tag : Value)
  /-- These tags in this order, possibly with others between them. -/
  | order (tags : List Value)
  /-- This tag so many times; the number may be any value. -/
  | times (tag count : Value)

namespace Expectation

/-- The number of tags that match a given one, as parts of a list do. -/
def occurrences (tags : List Value) (tag : Value) : Nat :=
  tags.countP fun t => Value.same t tag

def after? (tag : Value) : List Value → Option (List Value)
  | [] => none
  | t :: rest => if Value.equal t tag then some rest else after? tag rest

def inOrder : (expected tags : List Value) → Bool
  | [], _ => true
  | e :: expected, tags =>
    match after? e tags with
    | some rest => inOrder expected rest
    | none => false

/-- Does the search for a tag come to a comparison that never ends, before it finds the tag? -/
def isEndlessSearch (tag : Value) : List Value → Bool
  | [] => false
  | t :: rest => Value.endless t tag || (!Value.equal t tag && isEndlessSearch tag rest)

def isEndlessOrder : (expected tags : List Value) → Bool
  | [], _ => false
  | e :: expected, tags =>
    isEndlessSearch e tags ||
      match after? e tags with
      | some rest => isEndlessOrder expected rest
      | none => false

/-- Does a check make a comparison that never ends?  To count a tag is to compare it with all. -/
def isEndless (tags : List Value) : Expectation → Bool
  | sequence expected => Value.areEndless tags expected
  | nothing => false
  | never tag | times tag _ => tags.any fun t => Value.endless t tag
  | order expected => isEndlessOrder expected tags

def mismatch? (tags : List Value) : Expectation → Option Mismatch
  | sequence expected =>
    if Value.sameElements tags expected then none else some (.sequence expected)
  | nothing => if tags.isEmpty then none else some .unexpected
  | never tag =>
    if tags.any fun t => Value.same t tag then some (.unwanted tag (occurrences tags tag)) else none
  | order expected => if inOrder expected tags then none else some (.order expected)
  | times tag count =>
    if Value.equal (.int (occurrences tags tag)) count then none
    else some (.wrongCount tag count (occurrences tags tag))

def check (e : Expectation) (tags : List Value) : Except Failure Unit :=
  if e.isEndless tags then .error .endlessComparison
  else
    match e.mismatch? tags with
    | none => .ok ()
    | some found => .error (Failure.mismatch found tags).orUnwritable

end Expectation

end VirtualLooper
