import VirtualLooper.Text.Basic

/-! # Tokens

The tokens of a document.  Nesting by indentation has become explicit: a block collection begins
with its own token and ends with `blockEnd`, and every key of a mapping follows a `key`.
-/

namespace VirtualLooper.Yaml

inductive Directive
  /-- The version of the format. -/
  | version (major : Nat)
  /-- A handle of tags, and what it stands for. -/
  | handle (name text : String)
  | other
  deriving DecidableEq, Repr

inductive Token
  | directive (d : Directive)
  | documentStart
  | documentEnd
  | streamEnd
  | blockSequence
  | blockMapping
  | blockEnd
  | flowSequence
  | flowSequenceEnd
  | flowMapping
  | flowMappingEnd
  | flowEntry
  | blockEntry
  | key
  | value
  | alias (name : String)
  | anchor (name : String)
  /-- A tag: a handle, if it has one, and the text behind it. -/
  | tag (handle : Option String) (text : String)
  /-- A scalar; a plain one has neither quotes nor an indicator in front. -/
  | scalar (text : Text) (plain : Bool)
  deriving DecidableEq, Repr

end VirtualLooper.Yaml
