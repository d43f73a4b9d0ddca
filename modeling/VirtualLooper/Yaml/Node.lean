import VirtualLooper.Yaml.Token.Stream
import VirtualLooper.Yaml.Scalar

/-! # Nodes

A document is a graph of nodes.  Every node has a number, by which collections refer to their parts;
an alias is a second reference to a node, and may stand inside that very node.  Every node has a
tag: the one that it was given, or else the one that its kind, and for a plain scalar its text,
implies.

`Document.ofTokens` reads the graph off the tokens.  It asks for each token only when it cannot go
on without it, so something that is wrong with a document shows before a failure of the scan behind
it.
-/

namespace VirtualLooper.Yaml

abbrev NodeId := Nat

inductive Node
  | scalar (tag : Tag) (text : Text)
  | sequence (tag : Tag) (items : List NodeId)
  | mapping (tag : Tag) (entries : List (NodeId × NodeId))

def Node.tag : Node → Tag
  | scalar t _ => t
  | sequence t _ => t
  | mapping t _ => t

abbrev Graph := Array Node

/-- What is still to be read, with the failure behind it, the nodes so far, the nodes of anchors,
and what the handles of tags stand for. -/
structure Reader where
  tokens : List Token
  failure : Option Failure
  graph : Graph
  anchors : List (String × NodeId)
  handles : List (String × String)

abbrev Read := StateT Reader (Except Failure)

def refuse {α : Type} : Read α := throw .malformedDocument

namespace Reader

/-- The next token; behind the last one there is always the end. -/
def peek : Read Token := do
  let r ← get
  match r.tokens, r.failure with
  | t :: _, _ => return t
  | [], some e => throw e
  | [], none => return .streamEnd

def sees (ts : List Token) : Read Bool := return ts.contains (← peek)

def next : Read Unit := modify fun r => { r with tokens := r.tokens.tail }

def expect (t : Token) : Read Unit := do
  if (← peek) = t then next else refuse

def add (n : Node) : Read NodeId :=
  modifyGet fun r => (r.graph.size, { r with graph := r.graph.push n })

def put (id : NodeId) (n : Node) : Read Unit :=
  modify fun r => { r with graph := r.graph.setIfInBounds id n }

def addEmpty : Read NodeId := add (.scalar (Tag.implied "") "")

def bind (anchor : Option String) (id : NodeId) : Read Unit :=
  match anchor with
  | none => return
  | some name => modify fun r => { r with anchors := (name, id) :: r.anchors }

def checkAnchor (anchor : Option String) : Read Unit := do
  if (← get).anchors.any (some ·.1 = anchor) then refuse

def lookup (name : String) : Read NodeId := do
  match (← get).anchors.find? (·.1 = name) with
  | some (_, id) => return id
  | none => refuse

def tagOf : Option String → String → Read Tag
  | none, text => return Tag.ofText text
  | some handle, text => do
    match (← get).handles.find? (·.1 = handle) with
    | some (_, meant) => return Tag.ofText (meant ++ text)
    | none => refuse

end Reader

open Reader

/-! ### Properties -/

structure Properties where
  anchor : Option String
  tag : Option Tag

def readAnchor : Read (Option String) := do
  match ← peek with
  | .anchor name => next; return some name
  | _ => return none

def readTag : Read (Option (Option String × String)) := do
  match ← peek with
  | .tag handle text => next; return some (handle, text)
  | _ => return none

def readProperties : Read Properties := do
  match ← readAnchor with
  | some name => return ⟨some name, ← (← readTag).mapM fun t => tagOf t.1 t.2⟩
  | none =>
    match ← readTag with
    | some (handle, text) =>
      let anchor ← readAnchor
      return ⟨anchor, some (← tagOf handle text)⟩
    | none => return ⟨none, none⟩

def scalarTag (given : Option Tag) (text : Text) (plain : Bool) : Tag :=
  match given with
  | some .bare => Tag.implied text
  | some t => t
  | none => if plain then Tag.implied text else .str

def collectionTag (given : Option Tag) (kind : Tag) : Tag :=
  match given with
  | none | some .bare => kind
  | some t => t

/-! ### Collections -/

/-- A sequence whose items are read by a function.  The node is there before its items, for the sake
of aliases inside. -/
def readSequence (p : Properties) (items : Read (List NodeId)) : Read NodeId := do
  let tag := collectionTag p.tag .seq
  let id ← add (.sequence tag [])
  bind p.anchor id
  put id (.sequence tag (← items))
  return id

def readMapping (p : Properties) (entries : Read (List (NodeId × NodeId))) : Read NodeId := do
  let tag := collectionTag p.tag .map
  let id ← add (.mapping tag [])
  bind p.anchor id
  put id (.mapping tag (← entries))
  return id

def readScalar (p : Properties) (text : Text) (plain : Bool) : Read NodeId := do
  let id ← add (.scalar (scalarTag p.tag text plain) text)
  bind p.anchor id
  return id

mutual

/-- A node.  Block collections are allowed unless a flow collection is around; a sequence without
indentation of its own is allowed only as a part of a block mapping. -/
def readNode : (bound : Nat) → (block unindented : Bool) → Read NodeId
  | 0, _, _ => refuse
  | bound + 1, block, unindented => do
    if let .alias name ← peek then
      next
      return ← lookup name
    let p ← readProperties
    let t ← peek
    checkAnchor p.anchor
    match t, block, unindented with
    | .blockEntry, _, true => readSequence p (readUnindented bound)
    | .scalar text plain, _, _ => next; readScalar p text plain
    | .flowSequence, _, _ => next; readSequence p (readFlowSequence bound true)
    | .flowMapping, _, _ => next; readMapping p (readFlowMapping bound true)
    | .blockSequence, true, _ => next; readSequence p (readBlockSequence bound)
    | .blockMapping, true, _ => next; readMapping p (readBlockMapping bound)
    | _, _, _ => if p.anchor.isNone && p.tag.isNone then refuse else readScalar p "" true

def readOptional : (bound : Nat) → (block unindented : Bool) → (ends : List Token) → Read NodeId
  | 0, _, _, _ => refuse
  | bound + 1, block, unindented, ends => do
    if ← sees ends then addEmpty else readNode bound block unindented

def readBlockSequence : (bound : Nat) → Read (List NodeId)
  | 0 => refuse
  | bound + 1 => do
    if (← peek) = .blockEntry then
      next
      let n ← readOptional bound true false [.blockEntry, .blockEnd]
      return n :: (← readBlockSequence bound)
    else
      expect .blockEnd
      return []

/-- The items of a sequence without indentation of its own; it ends where no entry follows. -/
def readUnindented : (bound : Nat) → Read (List NodeId)
  | 0 => refuse
  | bound + 1 => do
    if (← peek) = .blockEntry then
      next
      let n ← readOptional bound true false [.blockEntry, .key, .value, .blockEnd]
      return n :: (← readUnindented bound)
    else return []

def readBlockMapping : (bound : Nat) → Read (List (NodeId × NodeId))
  | 0 => refuse
  | bound + 1 => do
    if (← peek) = .key then
      next
      let k ← readOptional bound true true [.key, .value, .blockEnd]
      let v ←
        if (← peek) = .value then
          next
          readOptional bound true true [.key, .value, .blockEnd]
        else addEmpty
      return (k, v) :: (← readBlockMapping bound)
    else
      expect .blockEnd
      return []

/-- The key and the value of an entry of a flow collection, behind the token for the key. -/
def readFlowEntry : (bound : Nat) → (stop : Token) → Read (NodeId × NodeId)
  | 0, _ => refuse
  | bound + 1, stop => do
    let k ← readOptional bound false false [.value, .flowEntry, stop]
    if (← peek) = .value then
      next
      return (k, ← readOptional bound false false [.flowEntry, stop])
    else return (k, ← addEmpty)

/-- The items of a flow sequence, up to its end.  An entry of a mapping stands for a mapping of its
own. -/
def readFlowSequence : (bound : Nat) → (first : Bool) → Read (List NodeId)
  | 0, _ => refuse
  | bound + 1, first => do
    if (← peek) = .flowSequenceEnd then
      next
      return []
    if !first then expect .flowEntry
    match ← peek with
    | .key =>
      next
      let n ← readMapping ⟨none, none⟩ do
        return [← readFlowEntry bound .flowSequenceEnd]
      return n :: (← readFlowSequence bound false)
    | .flowSequenceEnd =>
      next
      return []
    | _ =>
      let n ← readNode bound false false
      return n :: (← readFlowSequence bound false)

/-- The entries of a flow mapping, up to its end.  A node without a value has an empty one. -/
def readFlowMapping : (bound : Nat) → (first : Bool) → Read (List (NodeId × NodeId))
  | 0, _ => refuse
  | bound + 1, first => do
    if (← peek) = .flowMappingEnd then
      next
      return []
    if !first then expect .flowEntry
    match ← peek with
    | .key =>
      next
      let e ← readFlowEntry bound .flowMappingEnd
      return e :: (← readFlowMapping bound false)
    | .flowMappingEnd =>
      next
      return []
    | _ =>
      let k ← readNode bound false false
      let v ← addEmpty
      return (k, v) :: (← readFlowMapping bound false)

end

/-! ### Documents -/

def standardHandles : List (String × String) := [("!", "!"), ("!!", Tag.standardStart)]

/-- The directives in front of a document.  Neither the version nor a handle may be given twice. -/
def readDirectives : (bound : Nat) → (versioned : Bool) → Read Unit
  | 0, _ => refuse
  | bound + 1, versioned => do
    match ← peek with
    | .directive (.version major) =>
      next
      if versioned || major ≠ 1 then refuse else readDirectives bound true
    | .directive (.handle name text) =>
      next
      if (← get).handles.any (·.1 = name) then refuse
      modify fun r => { r with handles := (name, text) :: r.handles }
      readDirectives bound versioned
    | .directive .other =>
      next
      readDirectives bound versioned
    | _ => return

def skipEnds : (bound : Nat) → Read Unit
  | 0 => refuse
  | bound + 1 => do
    if (← peek) = .documentEnd then
      next
      skipEnds bound

def isOutside : Token → Bool
  | .directive _ | .documentStart | .documentEnd | .streamEnd => true
  | _ => false

/-- The first document, if there is one, with or without a start of its own. -/
def readDocument (bound : Nat) : Read (Option NodeId) := do
  let known := modify fun r => { r with handles := r.handles ++ standardHandles }
  match ← peek with
  | .directive _ | .documentStart | .streamEnd =>
    if (← peek) = .streamEnd then return none
    readDirectives bound false
    known
    expect .documentStart
    if isOutside (← peek) then return some (← addEmpty)
    else return some (← readNode bound true false)
  | _ =>
    known
    return some (← readNode bound true false)

/-- The end of the text.  Another document is refused once its beginning has been read. -/
def readEnd (bound : Nat) : Read Unit := do
  skipEnds bound
  if (← peek) ≠ .streamEnd then
    modify fun r => { r with handles := [] }
    readDirectives bound false
    refuse

structure Document where
  graph : Graph
  root : NodeId

def Document.ofTokens (scanned : Scanned) : Except Failure (Option Document) := do
  let bound := 4 * scanned.tokens.length + 8
  let reading : Read (Option NodeId) := do
    let root ← readDocument bound
    readEnd bound
    return root
  let (root, r) ← reading.run ⟨scanned.tokens, scanned.failure, #[], [], []⟩
  return root.map (⟨r.graph, ·⟩)

end VirtualLooper.Yaml
