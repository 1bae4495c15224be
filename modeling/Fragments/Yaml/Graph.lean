import Fragments.Yaml.Tree

namespace Fragments.Yaml

inductive Content
  | scalar (text : String)
  | sequence (items : List Nat)
  | mapping (entries : List (Nat × Nat))
  deriving DecidableEq, Inhabited

structure GraphNode where
  tag : Tag
  content : Content
  deriving DecidableEq, Inhabited

abbrev Graph := Array GraphNode

namespace Graph

def node (graph : Graph) (i : Nat) : GraphNode :=
  graph.getD i ⟨.unknown, .scalar ""⟩

def entries (graph : Graph) (i : Nat) : List (Nat × Nat) :=
  match (graph.node i).content with
  | .mapping entries => entries
  | _ => []

def setContent (graph : Graph) (i : Nat) (content : Content) : Graph :=
  graph.modify i fun node => { node with content }

def setTag (graph : Graph) (i : Nat) (tag : Tag) : Graph :=
  graph.modify i fun node => { node with tag }

structure Draft where
  graph : Graph
  anchors : List (String × Nat)

namespace Draft

def empty : Draft := ⟨#[], []⟩

def add (draft : Draft) (anchor : Option String) (node : GraphNode) :
    Except Trouble (Nat × Draft) :=
  let place := draft.graph.size
  match anchor with
  | none => .ok (place, { draft with graph := draft.graph.push node })
  | some name =>
      if (draft.anchors.lookup name).isSome then .error .malformed
      else .ok (place, ⟨draft.graph.push node, (name, place) :: draft.anchors⟩)

def fill (draft : Draft) (place : Nat) (content : Content) : Draft :=
  { draft with graph := draft.graph.setContent place content }

end Draft

mutual

/-- Adds a tree. A container takes its place before its parts, so that these can
refer to it. -/
def addTree (draft : Draft) : Tree → Except Trouble (Nat × Draft)
  | .alias name =>
      match draft.anchors.lookup name with
      | some place => .ok (place, draft)
      | none => .error .malformed
  | .scalar anchor tag text => draft.add anchor ⟨tag, .scalar text⟩
  | .sequence anchor tag items => do
      let (place, started) ← draft.add anchor ⟨tag, .sequence []⟩
      let (places, after) ← addItems started items
      .ok (place, after.fill place (.sequence places))
  | .mapping anchor tag entries => do
      let (place, started) ← draft.add anchor ⟨tag, .mapping []⟩
      let (places, after) ← addEntries started entries
      .ok (place, after.fill place (.mapping places))

def addItems (draft : Draft) : List Tree → Except Trouble (List Nat × Draft)
  | [] => .ok ([], draft)
  | item :: rest => do
      let (place, after) ← addTree draft item
      let (places, last) ← addItems after rest
      .ok (place :: places, last)

def addEntries (draft : Draft) :
    List (Tree × Tree) → Except Trouble (List (Nat × Nat) × Draft)
  | [] => .ok ([], draft)
  | (key, value) :: rest => do
      let (keyPlace, afterKey) ← addTree draft key
      let (valuePlace, afterValue) ← addTree afterKey value
      let (places, last) ← addEntries afterValue rest
      .ok ((keyPlace, valuePlace) :: places, last)

end

def ofTree (tree : Tree) : Except Trouble (Nat × Graph) := do
  let (root, draft) ← addTree Draft.empty tree
  .ok (root, draft.graph)

mutual

/-- Replaces the merge keys of a mapping by what they bring in, in front of its
own entries. A key that is a lone equals sign becomes a text. Mappings that are
merged into each other may be `levels` deep. -/
def flatten : Nat → Nat → Nat → Graph → Except Trouble Graph
  | 0, _, _, _ => .error .malformed
  | fuel + 1, levels, i, graph => below levels tooNested do
      flattenFrom fuel (levels - 1) i 0 [] graph
  termination_by structural fuel => fuel

/-- `flatten` from the entry at `index` on, after `merged` has been
collected. -/
def flattenFrom :
    Nat → Nat → Nat → Nat → List (Nat × Nat) → Graph → Except Trouble Graph
  | 0, _, _, _, _, _ => .error .malformed
  | fuel + 1, levels, i, index, merged, graph =>
      match (graph.entries i)[index]? with
      | none =>
          .ok (if merged.isEmpty then graph
            else graph.setContent i (.mapping (merged ++ graph.entries i)))
      | some (key, value) =>
          match (graph.node key).tag with
          | .merge =>
              let without :=
                graph.setContent i (.mapping ((graph.entries i).eraseIdx index))
              match (without.node value).content with
              | .mapping _ => do
                  let after ← flatten fuel levels value without
                  flattenFrom fuel levels i index
                    (merged ++ after.entries value) after
              | .sequence items => do
                  let (parts, after) ← flattenAll fuel levels items without
                  flattenFrom fuel levels i index
                    (merged ++ parts.reverse.flatten) after
              | .scalar _ => .error .malformed
          | .value =>
              flattenFrom fuel levels i (index + 1) merged
                (graph.setTag key .str)
          | _ => flattenFrom fuel levels i (index + 1) merged graph

def flattenAll :
    Nat → Nat → List Nat → Graph →
      Except Trouble (List (List (Nat × Nat)) × Graph)
  | 0, _, _, _ => .error .malformed
  | _ + 1, _, [], graph => .ok ([], graph)
  | fuel + 1, levels, i :: rest, graph =>
      match (graph.node i).content with
      | .mapping _ => do
          let after ← flatten fuel levels i graph
          let (parts, last) ← flattenAll fuel levels rest after
          .ok (after.entries i :: parts, last)
      | _ => .error .malformed

end

def weight (graph : Graph) : Nat :=
  graph.foldl
    (fun total node =>
      total + 1 +
        match node.content with
        | .scalar _ => 0
        | .sequence items => items.length
        | .mapping entries => entries.length)
    0

/-- More steps than replacing merge keys can take. -/
def mergeFuel (graph : Graph) : Nat := (graph.weight + 2) ^ (graph.weight + 2)

end Graph

end Fragments.Yaml
