import Fragments.Proofs.Yaml.Graphs
import Fragments.Yaml.Build
import Mathlib.Data.List.Perm.Subperm

namespace Fragments.Yaml

/-- What a node is as a part of a container. -/
inductive IsPart (graph : Graph) (i : Nat) : Part → Prop
  | scalar {tag : Tag} {text : String} {value : Scalar}
      (hnode : graph.node i = ⟨tag, .scalar text⟩)
      (hread : Graph.readAtom tag text = .ok value) :
      IsPart graph i (.scalar value)
  | container (hnode : Graph.isContainer (graph.node i).tag = true) :
      IsPart graph i (.container i)

/-- What a container is filled with. -/
inductive IsFilling (graph : Graph) (i : Nat) : Filling → Prop
  | list {places : List Nat} {parts : List Part}
      (hnode : graph.node i = ⟨.seq, .sequence places⟩)
      (hparts : List.Forall₂ (IsPart graph) places parts) :
      IsFilling graph i (.list parts)
  | mapping {places : List (Nat × Nat)} {pairs : List (Scalar × Part)}
      (hnode : graph.node i = ⟨.map, .mapping places⟩)
      (hkeys : List.Forall₂
        (fun place pair => IsPart graph place.1 (.scalar pair.1) ∧
        IsPart graph place.2 pair.2) places pairs) :
      IsFilling graph i (.mapping (Entries.ofPairs Scalar.same pairs))

/-- A graph whose nodes can all be read. -/
structure Readable (graph : Graph) : Prop where
  part : ∀ i < graph.size, ∃ part, IsPart graph i part
  filling : ∀ i < graph.size, Graph.isContainer (graph.node i).tag = true →
    ∃ filling, IsFilling graph i filling
  children : ∀ i < graph.size, ∀ c ∈ graph.children i, c < graph.size

variable {graph : Graph} {i : Nat} {part : Part}

theorem readAtom_container {tag : Tag} (htag : Graph.isContainer tag = true)
    (text : String) :
    Graph.readAtom tag text = .error .malformed := by
  cases tag with
  | omap | pairs | set | seq | map => rfl
  | _ => cases htag

theorem isContainer_of_readAtom {tag : Tag} {text : String} {value : Scalar}
    (hread : Graph.readAtom tag text = .ok value) :
    Graph.isContainer tag = false := by
  rw [← Bool.not_eq_true]
  intro hcontainer
  rw [readAtom_container hcontainer] at hread
  cases hread

theorem IsPart.unique {other : Part} (hpart : IsPart graph i part)
    (hother : IsPart graph i other) :
    part = other := by
  cases hpart with
  | scalar hnode hread =>
      cases hother with
      | scalar hsame hother =>
          rw [hnode] at hsame
          cases hsame
          rw [hread] at hother
          cases hother
          rfl
      | container htag =>
          rw [hnode, isContainer_of_readAtom hread] at htag
          cases htag
  | container htag =>
      cases hother with
      | scalar hnode hread =>
          rw [hnode, isContainer_of_readAtom hread] at htag
          cases htag
      | container => rfl

theorem atom_eq {tag : Tag} {text : String}
    (hnode : graph.node i = ⟨tag, .scalar text⟩) :
    graph.atom i = Graph.readAtom tag text := by
  have htext : graph.textOf nestingLimit i = .ok text := by
    rw [nestingLimit, Graph.textOf, hnode]
  have hmapping : graph.isMapping i = false := by rw [Graph.isMapping, hnode]
  rw [Graph.atom, htext, hmapping, hnode, Bool.and_false]
  rfl

namespace Works

/-- What holds while containers are filled: those that have been met wait or are
filled, except for the `busy` ones, and the parts of those that are filled have
been met. -/
structure Sound (graph : Graph) (busy : List Nat) (works : Works) : Prop where
  graph_eq : works.graph = graph
  fuel_eq : works.fuel = graph.mergeFuel
  atoms : ∀ i value, works.atoms.lookup i = some value →
    IsPart graph i (.scalar value)
  met : ∀ i ∈ works.met, i < graph.size ∧
    Graph.isContainer (graph.node i).tag = true
  nodup : works.met.Nodup
  places : works.met.Perm (busy ++ works.waiting ++ works.filled.map Prod.fst)
  filled : ∀ i filling, works.filled.lookup i = some filling →
    IsFilling graph i filling
  closed : ∀ i ∈ works.filled.map Prod.fst, ∀ c ∈ graph.children i,
    Graph.isContainer (graph.node c).tag = true → c ∈ works.met

/-- Nothing is filled in between, and what has been met stays. -/
structure Grows (works after : Works) : Prop where
  filled : after.filled = works.filled
  met : works.met ⊆ after.met

theorem Grows.refl (works : Works) : Grows works works :=
  ⟨rfl, List.Subset.refl _⟩

variable {busy : List Nat} {works : Works}

theorem Grows.trans {middle last : Works} (hfirst : Grows works middle)
    (hlast : Grows middle last) :
    Grows works last :=
  ⟨hlast.filled.trans hfirst.filled, List.Subset.trans hfirst.met hlast.met⟩

theorem forall_lookup_cons {ν : Type} {P : Nat → ν → Prop} {own : ν}
    {known : List (Nat × ν)} (hown : P i own)
    (hknown : ∀ j value, known.lookup j = some value → P j value) :
    ∀ j value, ((i, own) :: known).lookup j = some value → P j value := by
  intro j value hfound
  rw [List.lookup_cons] at hfound
  split at hfound
  · next heq =>
      cases hfound
      rwa [eq_of_beq heq]
  · exact hknown j value hfound

theorem Sound.read {value : Scalar} (hsound : Sound graph busy works)
    (hpart : IsPart graph i (.scalar value)) :
    Sound graph busy { works with atoms := (i, value) :: works.atoms } :=
  { hsound with atoms := forall_lookup_cons hpart hsound.atoms }

theorem Sound.meet (hsound : Sound graph busy works) (hplace : i < graph.size)
    (hcontainer : Graph.isContainer (graph.node i).tag = true)
    (hnew : i ∉ works.met) :
    Sound graph busy
      { works with met := i :: works.met, waiting := works.waiting ++ [i] } :=
  { hsound with
    met := List.forall_mem_cons.mpr ⟨⟨hplace, hcontainer⟩, hsound.met⟩
    nodup := List.nodup_cons.mpr ⟨hnew, hsound.nodup⟩
    places := by
      have hmiddle :
          (busy ++ (works.waiting ++ [i]) ++ works.filled.map Prod.fst) =
          (busy ++ works.waiting) ++ i :: works.filled.map Prod.fst := by simp
      rw [hmiddle]
      exact (hsound.places.cons i).trans List.perm_middle.symm
    closed := fun j hj c hc htag =>
      List.mem_cons_of_mem i (hsound.closed j hj c hc htag) }

theorem Sound.fill {filling : Filling} (hsound : Sound graph [i] works)
    (hfills : IsFilling graph i filling)
    (hmet : ∀ c ∈ graph.children i,
      Graph.isContainer (graph.node c).tag = true → c ∈ works.met) :
    Sound graph [] { works with filled := (i, filling) :: works.filled } :=
  { hsound with
    places := hsound.places.trans List.perm_middle.symm
    filled := forall_lookup_cons hfills hsound.filled
    closed := List.forall_mem_cons.mpr ⟨hmet, hsound.closed⟩ }

theorem exists_part (hsound : Sound graph busy works)
    (hpart : IsPart graph i part) (hplace : i < graph.size) :
    ∃ after, works.part i = .ok (part, after) ∧ Sound graph busy after ∧
      Grows works after ∧
        (Graph.isContainer (graph.node i).tag = true → i ∈ after.met) := by
  obtain rfl := hsound.graph_eq
  unfold Works.part
  by_cases hknown : i ∈ works.met
  · rw [hpart.unique (.container (hsound.met i hknown).2)]
    simp only [List.contains_eq_mem, hknown, decide_true, if_true]
    exact ⟨works, rfl, hsound, .refl works, fun _ => hknown⟩
  · simp only [List.contains_eq_mem, hknown, decide_false,
      Bool.false_eq_true, if_false]
    cases hpart with
    | @scalar tag text value hnode hread =>
        rw [hnode, isContainer_of_readAtom hread, atom_eq hnode, hread]
        cases hlookup : works.atoms.lookup i with
        | some known =>
            cases (hsound.atoms i known hlookup).unique (.scalar hnode hread)
            exact ⟨works, rfl, hsound, .refl works, nofun⟩
        | none =>
            exact ⟨_, rfl, hsound.read (.scalar hnode hread),
              ⟨rfl, List.Subset.refl _⟩, nofun⟩
    | container hcontainer =>
        have hunread : works.atoms.lookup i = none := by
          refine Option.eq_none_iff_forall_ne_some.mpr fun value hlookup => ?_
          cases (hsound.atoms i value hlookup).unique (.container hcontainer)
        rw [hunread, hcontainer]
        exact ⟨_, rfl, hsound.meet hplace hcontainer hknown,
          ⟨rfl, List.subset_cons_self i works.met⟩, fun _ => List.mem_cons_self⟩

theorem exists_parts {nodes : List Nat} {parts : List Part}
    (hparts : List.Forall₂ (IsPart graph) nodes parts)
    (hplaces : ∀ i ∈ nodes, i < graph.size) (hsound : Sound graph busy works) :
    ∃ after, works.parts nodes = .ok (parts, after) ∧ Sound graph busy after ∧
      Grows works after ∧
      ∀ i ∈ nodes, Graph.isContainer (graph.node i).tag = true →
        i ∈ after.met := by
  induction hparts generalizing works with
  | nil => exact ⟨works, rfl, hsound, .refl works, by simp⟩
  | @cons i part nodes parts hpart _ ih =>
      obtain ⟨hplace, hplaces⟩ := List.forall_mem_cons.mp hplaces
      obtain ⟨next, hfirst, hsound, hgrows, hmet⟩ :=
        exists_part hsound hpart hplace
      obtain ⟨after, hrest, hsound, hlater, hmore⟩ := ih hplaces hsound
      exact ⟨after, bind_eq_ok_iff.mpr
        ⟨_, hfirst, bind_eq_ok_iff.mpr ⟨_, hrest, rfl⟩⟩, hsound,
        hgrows.trans hlater,
        List.forall_mem_cons.mpr ⟨fun htag => hlater.met (hmet htag), hmore⟩⟩

theorem exists_entries {nodes : List (Nat × Nat)} {pairs : List (Scalar × Part)}
    (hpairs : List.Forall₂
      (fun place pair => IsPart graph place.1 (.scalar pair.1) ∧
      IsPart graph place.2 pair.2) nodes pairs)
    (hplaces : ∀ node ∈ nodes, node.1 < graph.size ∧ node.2 < graph.size)
    (hsound : Sound graph busy works) (built : List (Scalar × Part)) :
    ∃ after, works.entries built nodes = .ok
        (pairs.foldl (fun entries pair =>
          Entries.assign Scalar.same pair.1 pair.2 entries) built,
          after) ∧
      Sound graph busy after ∧ Grows works after ∧
      ∀ node ∈ nodes,
        (Graph.isContainer (graph.node node.1).tag = true →
          node.1 ∈ after.met) ∧
        (Graph.isContainer (graph.node node.2).tag = true →
          node.2 ∈ after.met) := by
  induction hpairs generalizing works built with
  | nil => exact ⟨works, rfl, hsound, .refl works, by simp⟩
  | @cons node pair nodes pairs hpair _ ih =>
      obtain ⟨⟨hkeyPlace, hvaluePlace⟩, hplaces⟩ :=
        List.forall_mem_cons.mp hplaces
      obtain ⟨middle, hkey, hsound, hgrows, hkeyMet⟩ :=
        exists_part hsound hpair.1 hkeyPlace
      obtain ⟨next, hvalue, hsound, hlater, hvalueMet⟩ :=
        exists_part hsound hpair.2 hvaluePlace
      obtain ⟨after, hrest, hsound, hlast, hmore⟩ :=
        ih hplaces hsound (Entries.assign Scalar.same pair.1 pair.2 built)
      refine ⟨after,
        bind_eq_ok_iff.mpr ⟨_, hkey, bind_eq_ok_iff.mpr ⟨_, hvalue, hrest⟩⟩,
        hsound, hgrows.trans (hlater.trans hlast),
        List.forall_mem_cons.mpr ⟨⟨fun htag => ?_, fun htag => ?_⟩,
          hmore⟩⟩
      · exact hlast.met (hlater.met (hkeyMet htag))
      · exact hlast.met (hvalueMet htag)

end Works

theorem flattenFrom_eq
    (hkeys : ∀ entry ∈ graph.entries i,
      (graph.node entry.1).tag ≠ .merge ∧ (graph.node entry.1).tag ≠ .value)
    {fuel levels index : Nat} (hindex : index ≤ (graph.entries i).length)
    (hfuel : (graph.entries i).length < fuel + index) :
    Graph.flattenFrom fuel levels i index [] graph = .ok graph := by
  induction fuel generalizing index with
  | zero => omega
  | succ fuel ih =>
      unfold Graph.flattenFrom
      split
      · rfl
      · next key value hentry =>
          obtain ⟨hlength, -⟩ := List.getElem?_eq_some_iff.mp hentry
          obtain ⟨hmerge, hvalue⟩ := hkeys _ (List.mem_of_getElem? hentry)
          split
          · next htag => exact absurd htag hmerge
          · next htag => exact absurd htag hvalue
          · exact ih hlength (by omega)

def partCount (node : GraphNode) : Nat :=
  match node.content with
  | .scalar _ => 0
  | .sequence items => items.length
  | .mapping entries => entries.length

theorem partCount_le_foldl {nodes : List GraphNode} {node : GraphNode}
    (hmem : node ∈ nodes) (total : Nat) :
    partCount node ≤ nodes.foldl (fun total node => total + 1 + partCount node)
      total := by
  have hgrows (nodes : List GraphNode) (total : Nat) :
      total ≤ nodes.foldl (fun total node => total + 1 + partCount node)
        total := by
    induction nodes generalizing total with
    | nil => exact Nat.le_refl _
    | cons node rest ih =>
        rw [List.foldl_cons]
        exact Nat.le_trans (by omega) (ih _)
  induction nodes generalizing total with
  | nil => cases hmem
  | cons first rest ih =>
      rw [List.foldl_cons]
      rcases List.mem_cons.mp hmem with rfl | hmem
      · exact Nat.le_trans (Nat.le_add_left _ _) (hgrows rest _)
      · exact ih hmem _

theorem length_entries_le_weight (graph : Graph) (i : Nat) :
    (graph.entries i).length ≤ graph.weight := by
  have hweight : graph.weight =
      graph.toList.foldl (fun total node => total + 1 + partCount node) 0 := by
    rw [Array.foldl_toList]
    rfl
  unfold Graph.entries
  split
  · next entries hcontent =>
      have hmem : graph.node i ∈ graph.toList := by
        unfold Graph.node at hcontent ⊢
        rw [Array.getD_eq_getD_getElem?] at hcontent ⊢
        cases hnode : graph[i]? with
        | none =>
            rw [hnode] at hcontent
            cases hcontent
        | some node => exact (Array.mem_of_getElem? hnode).val
      have hcount : partCount (graph.node i) = entries.length := by
        rw [partCount, hcontent]
      rw [hweight, ← hcount]
      exact partCount_le_foldl hmem 0
  · exact Nat.zero_le _

theorem flatten_eq
    (hkeys : ∀ entry ∈ graph.entries i,
      (graph.node entry.1).tag ≠ .merge ∧ (graph.node entry.1).tag ≠ .value) :
    graph.flatten graph.mergeFuel nestingLimit i = .ok graph := by
  have hweight := length_entries_le_weight graph i
  have hpower : graph.weight + 2 ≤ graph.mergeFuel :=
    Nat.le_self_pow (by omega) _
  obtain ⟨fuel, hfuel⟩ : ∃ fuel, graph.mergeFuel = fuel + 1 :=
    Nat.exists_eq_add_of_le' (by omega)
  rw [hfuel]
  exact below_eq_ok_iff.mpr
    ⟨by decide, flattenFrom_eq hkeys (Nat.zero_le _) (by omega)⟩

namespace Works

theorem tag_key {i : Nat} {key : Scalar}
    (hpart : IsPart graph i (.scalar key)) :
    (graph.node i).tag ≠ .merge ∧ (graph.node i).tag ≠ .value := by
  cases hpart with
  | @scalar tag text _ hnode hread =>
      rw [hnode]
      constructor
      · rintro rfl
        cases hread
      · rintro rfl
        cases hread

theorem exists_mappingEntries {places : List (Nat × Nat)}
    {pairs : List (Scalar × Part)}
    (hnode : graph.node i = ⟨.map, .mapping places⟩)
    (hpairs : List.Forall₂
      (fun place pair => IsPart graph place.1 (.scalar pair.1) ∧
      IsPart graph place.2 pair.2) places pairs)
    (hplaces : ∀ place ∈ places, place.1 < graph.size ∧ place.2 < graph.size)
    {works : Works} (hsound : Sound graph busy works) :
    ∃ after, works.mappingEntries i =
      .ok (Entries.ofPairs Scalar.same pairs, after) ∧
      Sound graph busy after ∧ Grows works after ∧
      ∀ place ∈ places,
        (Graph.isContainer (graph.node place.1).tag = true →
          place.1 ∈ after.met) ∧
        (Graph.isContainer (graph.node place.2).tag = true →
          place.2 ∈ after.met) := by
  obtain rfl := hsound.graph_eq
  have hentries : works.graph.entries i = places := by rw [Graph.entries, hnode]
  have hkeys : ∀ entry ∈ works.graph.entries i,
      (works.graph.node entry.1).tag ≠ .merge ∧
        (works.graph.node entry.1).tag ≠ .value := by
    rw [hentries]
    intro entry hmem
    obtain ⟨pair, -, hkey, -⟩ := exists_of_mem_forall₂ hpairs hmem
    exact tag_key hkey
  have hflat : works.graph.flatten works.fuel nestingLimit i =
      .ok works.graph := by
    rw [hsound.fuel_eq]
    exact flatten_eq hkeys
  obtain ⟨after, hafter, hmore⟩ := exists_entries hpairs hplaces hsound []
  refine ⟨after, ?_, hmore⟩
  unfold mappingEntries
  rw [hnode]
  refine bind_eq_ok_iff.mpr ⟨works.graph, hflat, ?_⟩
  rw [hentries]
  exact hafter

theorem exists_fill (hreadable : Readable graph) {works : Works}
    (hsound : Sound graph [i] works) :
    ∃ after, works.fill i = .ok after ∧ Sound graph [] after ∧
      after.filled.length = works.filled.length + 1 ∧
        works.met ⊆ after.met := by
  have hmem : i ∈ works.met := hsound.places.mem_iff.mpr List.mem_cons_self
  obtain ⟨hplace, hcontainer⟩ := hsound.met i hmem
  have hchildren := hreadable.children i hplace
  have hgraph := hsound.graph_eq
  obtain ⟨filling, hfills⟩ := hreadable.filling i hplace hcontainer
  cases hfills with
  | @list places parts hnode hparts =>
      have hparts' : graph.children i = places := by rw [Graph.children, hnode]
      obtain ⟨after, hafter, hsound, hgrows, hmet⟩ :=
        exists_parts hparts (hparts' ▸ hchildren) hsound
      refine ⟨_, ?_, hsound.fill (.list hnode hparts) (hparts' ▸ hmet),
        by rw [List.length_cons, hgrows.filled], hgrows.met⟩
      unfold Works.fill
      rw [hgraph, hnode]
      simp only [hafter]
      rfl
  | @mapping places pairs hnode hpairs =>
      rw [Graph.children, hnode] at hchildren
      have hplaces : ∀ place ∈ places, place.1 < graph.size ∧
          place.2 < graph.size :=
        fun place hmem =>
          ⟨hchildren _ (List.mem_flatMap.mpr ⟨place, hmem, by simp⟩),
            hchildren _ (List.mem_flatMap.mpr ⟨place, hmem, by simp⟩)⟩
      obtain ⟨after, hafter, hsound, hgrows, hmet⟩ :=
        exists_mappingEntries hnode hpairs hplaces hsound
      refine ⟨_, ?_, hsound.fill (.mapping hnode hpairs) (fun c hc htag => ?_),
        by rw [List.length_cons, hgrows.filled], hgrows.met⟩
      · unfold Works.fill
        rw [hgraph, hnode]
        simp only [hafter]
        rfl
      · rw [Graph.children, hnode] at hc
        obtain ⟨place, hplace, hc⟩ := List.mem_flatMap.mp hc
        have hmet := hmet place hplace
        simp only [List.mem_cons, List.not_mem_nil, or_false] at hc
        rcases hc with rfl | rfl
        · exact hmet.1 htag
        · exact hmet.2 htag

/-- What has been met is bounded by the graph, so filling comes to an end. -/
theorem exists_fillAll (hreadable : Readable graph) {fuel : Nat} {works : Works}
    (hsound : Sound graph [] works)
    (hfuel : graph.size < fuel + works.filled.length) :
    ∃ done, Works.fillAll fuel works = .ok done ∧ Sound graph [] done ∧
      done.waiting = [] ∧ works.met ⊆ done.met := by
  induction fuel generalizing works with
  | zero =>
      have hfew : works.met.length ≤ graph.size := by
        have hsub : works.met ⊆ List.range graph.size := fun i hi =>
          List.mem_range.mpr (hsound.met i hi).1
        simpa using (List.subperm_of_subset hsound.nodup hsub).length_le
      have hlength := hsound.places.length_eq
      simp only [List.length_append, List.length_map] at hlength
      omega
  | succ fuel ih =>
      unfold Works.fillAll
      cases hwaiting : works.waiting with
      | nil => exact ⟨works, rfl, hsound, hwaiting, List.Subset.refl _⟩
      | cons i rest =>
          have hbusy : Sound graph [i] { works with waiting := rest } := by
            have hplaces := hsound.places
            rw [hwaiting] at hplaces
            exact ⟨hsound.graph_eq, hsound.fuel_eq, hsound.atoms, hsound.met,
              hsound.nodup, hplaces, hsound.filled, hsound.closed⟩
          obtain ⟨next, hnext, hsound, hlength, hmet⟩ :=
            exists_fill hreadable hbusy
          obtain ⟨done, hdone, hlast, hnone, hmore⟩ := ih hsound (by
            rw [hlength]
            simp only
            omega)
          exact ⟨done, bind_eq_ok_iff.mpr ⟨next, hnext, hdone⟩, hlast, hnone,
            List.Subset.trans hmet hmore⟩

end Works

end Fragments.Yaml
