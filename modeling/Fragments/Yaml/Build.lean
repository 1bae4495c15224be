import Fragments.Data.Value
import Fragments.Yaml.Atom

namespace Fragments.Yaml

inductive Part
  | scalar (value : Scalar)
  | container (node : Nat)
  deriving Inhabited

inductive Filling
  | list (parts : List Part)
  | mapping (entries : List (Scalar × Part))
  | set (elements : List Scalar)
  | pairs (pairs : List (Part × Part))
  deriving Inhabited

/-- The state of filling: containers met and not yet filled, and those that have
been filled. `fuel` is for replacing merge keys. -/
structure Works where
  graph : Graph
  fuel : Nat
  met : List Nat
  waiting : List Nat
  atoms : List (Nat × Scalar)
  filled : List (Nat × Filling)

namespace Works

/-- The part that a node is. A container met for the first time waits to be
filled; the value of a scalar is settled when it is met for the first time. -/
def part (works : Works) (i : Nat) : Except Trouble (Part × Works) :=
  let tag := (works.graph.node i).tag
  if works.met.contains i then .ok (.container i, works)
  else
    match works.atoms.lookup i with
    | some value => .ok (.scalar value, works)
    | none =>
        if Graph.isContainer tag then
          .ok (.container i,
            { works with met := i :: works.met, waiting :=
              works.waiting ++ [i] })
        else do
          let value ← works.graph.atom i
          .ok (.scalar value, { works with atoms := (i, value) :: works.atoms })

def parts (works : Works) : List Nat → Except Trouble (List Part × Works)
  | [] => .ok ([], works)
  | i :: rest => do
      let (part, after) ← works.part i
      let (more, last) ← after.parts rest
      .ok (part :: more, last)

/-- The entries of a mapping whose merge keys have been replaced. Only scalars
can be keys. -/
def entries (works : Works) (built : List (Scalar × Part)) :
    List (Nat × Nat) → Except Trouble (List (Scalar × Part) × Works)
  | [] => .ok (built, works)
  | (key, value) :: rest => do
      let (keyPart, afterKey) ← works.part key
      match keyPart with
      | .container _ => .error .malformed
      | .scalar scalar => do
          let (valuePart, afterValue) ← afterKey.part value
          afterValue.entries
            (Entries.assign Scalar.same scalar valuePart built) rest

def mappingEntries (works : Works) (i : Nat) :
    Except Trouble (List (Scalar × Part) × Works) :=
  match (works.graph.node i).content with
  | .mapping _ => do
      let graph ← works.graph.flatten works.fuel nestingLimit i
      { works with graph }.entries [] (graph.entries i)
  | _ => .error .malformed

def pairList (works : Works) :
    List Nat → Except Trouble (List (Part × Part) × Works)
  | [] => .ok ([], works)
  | i :: rest =>
      match (works.graph.node i).content with
      | .mapping [(key, value)] => do
          let (keyPart, afterKey) ← works.part key
          let (valuePart, afterValue) ← afterKey.part value
          let (more, last) ← afterValue.pairList rest
          .ok ((keyPart, valuePart) :: more, last)
      | _ => .error .malformed

def fill (works : Works) (i : Nat) : Except Trouble Works := do
  let node := works.graph.node i
  let (filling, after) ←
    match node.tag, node.content with
    | .seq, .sequence items => do
        let (parts, after) ← works.parts items
        pure (Filling.list parts, after)
    | .map, _ => do
        let (entries, after) ← works.mappingEntries i
        pure (Filling.mapping entries, after)
    | .set, _ => do
        let (entries, after) ← works.mappingEntries i
        pure (Filling.set (entries.map Prod.fst), after)
    | .omap, .sequence items => do
        let (pairs, after) ← works.pairList items
        pure (Filling.pairs pairs, after)
    | .pairs, .sequence items => do
        let (pairs, after) ← works.pairList items
        pure (Filling.pairs pairs, after)
    | _, _ => .error .malformed
  .ok { after with filled := (i, filling) :: after.filled }

def fillAll : Nat → Works → Except Trouble Works
  | 0, works => .ok works
  | fuel + 1, works =>
      match works.waiting with
      | [] => .ok works
      | i :: rest => do
          fillAll fuel (← { works with waiting := rest }.fill i)

end Works

def Part.node? : Part → Option Nat
  | .scalar _ => none
  | .container i => some i

def Filling.mentions : Filling → List Nat
  | .list parts => parts.filterMap Part.node?
  | .mapping entries => entries.filterMap fun (_, part) => part.node?
  | .set _ => []
  | .pairs both => both.flatMap fun (a, b) => a.node?.toList ++ b.node?.toList

def reachable (filled : List (Nat × Filling)) :
    Nat → List Nat → List Nat → List Nat
  | 0, seen, _ => seen
  | _ + 1, seen, [] => seen
  | fuel + 1, seen, i :: next =>
      if seen.contains i then reachable filled fuel seen next
      else
        let mentioned := ((filled.lookup i).map Filling.mentions).getD []
        reachable filled fuel (i :: seen) (mentioned ++ next)

/-- The containers that are mentioned more than once, the mention of the root by
the document included, and those that stand inside themselves; what does is
reached through one of the former. -/
def shared (filled : List (Nat × Filling)) (root : Nat) : List Nat :=
  let total :=
    filled.foldl (fun total (_, filling) => total + filling.mentions.length) 1
  let mentioned := fun i => ((filled.lookup i).map Filling.mentions).getD []
  let live := reachable filled (2 * total + 1) [] [root]
  let mentions := root :: live.flatMap mentioned
  let many := live.filter fun i => 1 < mentions.count i
  let inside := fun i =>
    (reachable filled (2 * total + 1) [] (mentioned i)).contains i
  if many.any inside then live.filter fun i => many.contains i ||
    inside i else many

structure Unrolling where
  filled : List (Nat × Filling)
  shared : List Nat

namespace Unrolling

/-- The value of a part; `above` are the containers around it. -/
def part (u : Unrolling) : Nat → List Nat → Part → Value
  | _, _, .scalar value => .scalar value
  | 0, _, .container i => .back i
  | fuel + 1, above, .container i =>
      if above.contains i then .back i
      else
        let label := if u.shared.contains i then some i else none
        match u.filled.lookup i with
        | some (.list parts) =>
            .list label (parts.map (u.part fuel (i :: above)))
        | some (.mapping entries) =>
            .mapping label
              (entries.map fun entry =>
                (entry.1, u.part fuel (i :: above) entry.2))
        | some (.set elements) => .set label elements
        | some (.pairs list) =>
            .list label
              (list.map fun (a, b) =>
                .pair (u.part fuel (i :: above) a) (u.part fuel (i :: above) b))
        | none => .back i

end Unrolling

def build (root : Nat) (graph : Graph) : Except Trouble Value := do
  let (part, works) ← (Works.mk graph graph.mergeFuel [] [] [] []).part root
  let done ← works.fillAll (graph.size + 1)
  let shared := match part with
    | .container i => shared done.filled i
    | .scalar _ => []
  .ok (Unrolling.part ⟨done.filled, shared⟩ (graph.size + 1) [] part)

end Fragments.Yaml
