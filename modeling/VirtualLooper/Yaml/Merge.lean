import VirtualLooper.Yaml.Node

/-! # Merging

An entry of a mapping whose key has the tag of merging is no entry of its own: it stands for the
entries of another mapping, or of several, the last one first.  `Graph.merge` replaces such entries.
The entries that are merged in come before the mapping's own; of the mappings that are merged in,
those merge first what they ask for.  A mapping may be merged into itself.
-/

namespace VirtualLooper.Yaml

namespace Graph

def tagOf (g : Graph) (id : NodeId) : Option Tag := (g[id]?).map Node.tag

def entriesOf (g : Graph) (id : NodeId) : List (NodeId × NodeId) :=
  match g[id]? with
  | some (.mapping _ entries) => entries
  | _ => []

def isMapping (g : Graph) (id : NodeId) : Bool :=
  match g[id]? with
  | some (.mapping ..) => true
  | _ => false

def setEntries (g : Graph) (id : NodeId) (entries : List (NodeId × NodeId)) : Graph :=
  match g[id]? with
  | some (.mapping tag _) => g.setIfInBounds id (.mapping tag entries)
  | _ => g

/-- Gives a node the tag of texts if it has that of the default value. -/
def nameDefault (g : Graph) (id : NodeId) : Graph :=
  match g[id]? with
  | some (.scalar .default text) => g.setIfInBounds id (.scalar .str text)
  | some (.sequence .default items) => g.setIfInBounds id (.sequence .str items)
  | some (.mapping .default entries) => g.setIfInBounds id (.mapping .str entries)
  | _ => g

/-- Takes the first entry that merges something out of a mapping: what it merges, and what stays. -/
def takeMerge? (g : Graph) (id : NodeId) : Option (NodeId × Graph) :=
  match (g.entriesOf id).span fun e => g.tagOf e.1 ≠ some .merge with
  | (front, (_, source) :: back) => some (source, g.setEntries id (front ++ back))
  | (_, []) => none

/-- Puts the entries that a mapping has merged in front of its own.  Among its keys the word for the
default value is an ordinary text. -/
def finishMerge (g : Graph) (id : NodeId) (merged : List (NodeId × NodeId)) : Graph :=
  let own := g.entriesOf id
  (own.foldl (fun g e => g.nameDefault e.1) g).setEntries id (merged ++ own)

/-- Replaces the entries of a mapping that merge something, given what has been merged so far.  The
bound counts down as such entries get fewer. -/
def mergeWith : (bound : Nat) → NodeId → (merged : List (NodeId × NodeId)) → Graph →
    Except Failure Graph
  | 0, _, _, _ => malformed
  | bound + 1, id, merged, g =>
    match g.takeMerge? id with
    | none => .ok (g.finishMerge id merged)
    | some (source, g) => do
      let mergedFrom (g : Graph) (id : NodeId) : Except Failure (List (NodeId × NodeId) × Graph) :=
        if g.isMapping id then (mergeWith bound id [] g).map fun g => (g.entriesOf id, g)
        else malformed
      let (brought, g) ←
        match g[source]? with
        | some (.sequence _ items) =>
          items.foldlM (fun (brought, g) item =>
            (mergedFrom g item).map fun (entries, g) => (entries ++ brought, g)) ([], g)
        | _ => mergedFrom g source
      mergeWith bound id (merged ++ brought) g

def entryCount (g : Graph) : Nat :=
  g.foldl (fun n node =>
    match node with
    | .mapping _ entries => n + entries.length
    | _ => n) 0

def merge (g : Graph) (id : NodeId) : Except Failure Graph := mergeWith (g.entryCount + 1) id [] g

end Graph

end VirtualLooper.Yaml
