import VirtualLooper.Value.Equality
import VirtualLooper.Yaml.Merge

/-! # The content of a document

`Yaml.read` is the value of a document.  In a mapping, of entries with the same key the last one
counts.  Only a scalar may be a key.  A set is written as a mapping, whose keys are its members, and
a list of pairs as a sequence of mappings with one entry each.  Every node is made into a value
once, wherever it is referred to: first the outermost one, then level by level the parts of
collections, in order.  So where several nodes have no value, the least deep of them says why the
document has none.

Collections that do not lead back to themselves become lists and mappings.  The others form a web.
-/

namespace VirtualLooper.Yaml

/-- What a node has been made into: a value, or a collection of further nodes. -/
inductive Made
  | value (v : Value)
  | list (items : List NodeId)
  | dict (entries : List (Value × NodeId))
  | pairs (entries : List (NodeId × NodeId))
  | set (members : List Value)

/-- The nodes, what those that have been met were made into, and the collections whose parts have
not been looked at, the last one first. -/
structure Builder where
  graph : Graph
  made : Array (Option Made)
  waiting : List NodeId

abbrev Build := StateT Builder (Except Failure)

/-! ### Scalars -/

/-- The text of a node with the tag of a scalar.  A mapping stands for the value under the word for
the default value. -/
def Graph.scalarText (g : Graph) : (bound : Nat) → NodeId → Except Failure Text
  | 0, _ => .error .endlessScalar
  | bound + 1, id =>
    match g[id]? with
    | some (.scalar _ text) => .ok text
    | some (.mapping _ entries) =>
      match entries.find? fun e => g.tagOf e.1 = some .default with
      | some (_, v) => scalarText g bound v
      | none => malformed
    | _ => malformed

/-- The value of a node with the tag of a scalar.  Its number tells it apart from others.  A time
has to stand in the node itself. -/
def Graph.scalar (g : Graph) (id : NodeId) (tag : Tag) : Except Failure Value := do
  let text ← g.scalarText (g.size + 1) id
  if tag = .time && g.isMapping id then throw (.noTimeText .list)
  tag.scalar text (id + 1)

namespace Builder

def made? (b : Builder) (id : NodeId) : Option Made := (b.made[id]?).join

def note (b : Builder) (id : NodeId) (m : Made) : Builder :=
  { b with made := b.made.setIfInBounds id (some m) }

def postpone (b : Builder) (id : NodeId) (m : Made) : Builder :=
  { b.note id m with waiting := id :: b.waiting }

end Builder

/-! ### Levels -/

/-- Meets a node: a scalar is made into a value, and a collection waits for its turn. -/
def meet (id : NodeId) : Build Unit := do
  let b ← get
  if (b.made? id).isNone then
    match b.graph.tagOf id with
    | some .seq => set (b.postpone id (.list []))
    | some .map => set (b.postpone id (.dict []))
    | some .pairs => set (b.postpone id (.pairs []))
    | some .set => set (b.postpone id (.set []))
    | some tag =>
      if tag.isScalar then set (b.note id (.value (← b.graph.scalar id tag))) else malformed
    | none => malformed

def meetKey (id : NodeId) : Build Value := do
  meet id
  match (← get).made? id with
  | some (.value key) => return key
  | _ => malformed

/-- Meets the key and the value of an entry, and adds it to a mapping. -/
def meetEntry (known : List (Value × NodeId)) (entry : NodeId × NodeId) :
    Build (List (Value × NodeId)) := do
  let key ← meetKey entry.1
  meet entry.2
  return Value.insertEntry known key entry.2

/-- Meets the entries of a mapping, once those that merge something have been replaced. -/
def meetEntries (id : NodeId) : Build (List (Value × NodeId)) := do
  let g ← (← get).graph.merge id
  modify fun b => { b with graph := g }
  (g.entriesOf id).foldlM meetEntry []

def meetPair (id : NodeId) : Build (NodeId × NodeId) := do
  match (← get).graph.entriesOf id with
  | [entry] =>
    meet entry.1
    meet entry.2
    return entry
  | _ => malformed

def meetParts (id : NodeId) : Build Unit := do
  match (← get).graph[id]? with
  | some (.sequence .seq items) =>
    items.forM meet
    modify (·.note id (.list items))
  | some (.sequence .pairs items) =>
    let entries ← items.mapM meetPair
    modify (·.note id (.pairs entries))
  | some (.mapping .map _) =>
    let entries ← meetEntries id
    modify (·.note id (.dict entries))
  | some (.mapping .set _) =>
    let entries ← meetEntries id
    modify (·.note id (.set (entries.map (·.1))))
  | _ => malformed

/-- Meets the parts of all collections that wait, and of those that wait then. -/
def meetAll : (bound : Nat) → Build Unit
  | 0 => return
  | bound + 1 => do
    let level := (← get).waiting.reverse
    if !level.isEmpty then
      modify fun b => { b with waiting := [] }
      level.forM meetParts
      meetAll bound

/-! ### Values -/

/-- The value of what a node has been made into, given the values of its parts. -/
def Made.value? (values : Array (Option Value)) (m : Made) : Option Value :=
  let found (i : NodeId) : Option Value := (values[i]?).join
  match m with
  | value v => some v
  | list items => (items.mapM found).map .list
  | dict entries => (entries.mapM fun e => (found e.2).map (e.1, ·)).map .dict
  | pairs entries =>
    (entries.mapM fun e => (found e.1).bind fun a => (found e.2).map fun b => .tuple [a, b]).map
      .list
  | set members => some (.ofMembers members)

def Builder.findValues (b : Builder) (values : Array (Option Value)) : Array (Option Value) :=
  (List.range b.made.size).foldr (fun id values =>
    if ((values[id]?).join).isSome then values
    else
      let found := (b.made? id).bind (·.value? values)
      values.setIfInBounds id found) values

def foundCount (values : Array (Option Value)) : Nat := values.countP Option.isSome

def Builder.valuesFrom (b : Builder) :
    (bound : Nat) → Array (Option Value) → Array (Option Value)
  | 0, values => values
  | bound + 1, values =>
    let count := foundCount values
    let next := b.findValues values
    if foundCount next = count then next else valuesFrom b bound next

def Builder.web (b : Builder) (values : Array (Option Value)) : Web :=
  let part (id : NodeId) : Part :=
    match (values[id]?).join with
    | some v => .value v
    | none => .link id
  (List.range b.made.size).map fun id =>
    match (values[id]?).join, b.made? id with
    | none, some (.list items) => .list (items.map part)
    | none, some (.dict entries) => .dict (entries.map fun e => (e.1, part e.2))
    | none, some (.pairs entries) => .pairs (entries.map fun e => (part e.1, part e.2))
    | _, _ => .list []

def Builder.valueOf (b : Builder) (id : NodeId) : Value :=
  let values := b.valuesFrom (b.made.size + 1) (Array.replicate b.made.size none)
  match (values[id]?).join with
  | some v => v
  | none => .cell (b.web values) id

def Document.value (d : Document) : Except Failure Value := do
  let building : Build Unit := do
    meet d.root
    meetAll (d.graph.size + 1)
  let ((), b) ← building.run ⟨d.graph, Array.replicate d.graph.size none, []⟩
  return b.valueOf d.root

/-! ### Texts -/

def isAllowed (c : Char) : Bool :=
  let n := c.toNat
  n = 0x09 || n = 0x0a || n = 0x0d || (0x20 ≤ n && n ≤ 0x7e) || n = 0x85 ||
    (0xa0 ≤ n && n ≤ 0xd7ff) || (0xe000 ≤ n && n ≤ 0xfffd) || 0x10000 ≤ n

/-- The text with a line feed for every line break of two characters or by a carriage return. -/
def unifyBreaks : List Char → List Char
  | '\r' :: '\n' :: rest => '\n' :: unifyBreaks rest
  | '\r' :: rest => '\n' :: unifyBreaks rest
  | c :: rest => c :: unifyBreaks rest
  | [] => []

/-- A document is read in portions of so many characters, but for the first portion, which is two of
them long. -/
def portion : Nat := 4096

/-- Where the portion begins that holds the character of the given index. -/
def portionStart (index : Nat) : Nat :=
  if index < 2 * portion then 0 else portion * (index / portion)

/-- The document in a text, if there is one.  A character that may not occur is found when its
portion is read; so the document may have failed before. -/
def Document.ofChars (cs : List Char) : Except Failure (Option Document) :=
  match cs.findIdx? (!isAllowed ·) with
  | none => ofTokens (Token.scan cs false)
  | some index => do
    let _ ← ofTokens (Token.scan (cs.take (portionStart index)) true)
    malformed

/-- The value of a document in a text.  A text without a document has no value. -/
def read (text : String) : Except Failure Value := do
  match ← Document.ofChars (unifyBreaks text.toList) with
  | some d => d.value
  | none => return .none

end VirtualLooper.Yaml
