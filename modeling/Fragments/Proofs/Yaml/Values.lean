import Fragments.Proofs.Json.Values
import Fragments.Proofs.Yaml.Filling
import Fragments.Proofs.Yaml.Unrolling
import Mathlib.Data.List.Nodup

namespace Fragments.Yaml

variable {graph : Graph} {first last : Nat}

structure ReadableNode (graph : Graph) (i : Nat) : Prop where
  part : ∃ part, IsPart graph i part
  filling : Graph.isContainer (graph.node i).tag = true →
    ∃ filling, IsFilling graph i filling

def ReadableNodes (graph : Graph) (first last : Nat) : Prop :=
  ∀ i, first ≤ i → i < last → ReadableNode graph i

theorem readableNodes_scalar {tag : Tag} {text : String} {value : Scalar}
    (hnode : graph.node first = ⟨tag, .scalar text⟩)
    (hread : Graph.readAtom tag text = .ok value) :
    ReadableNodes graph first (first + 1) := by
  intro i hlow hhigh
  obtain rfl : i = first := by omega
  refine ⟨⟨_, .scalar hnode hread⟩, fun hcontainer => ?_⟩
  rw [hnode] at hcontainer
  rw [readAtom_container hcontainer] at hread
  cases hread

theorem ReadableNodes.append {next : Nat}
    (hfirst : ReadableNodes graph first next)
    (hrest : ReadableNodes graph next last) :
    ReadableNodes graph first last := by
  intro i hlow hhigh
  by_cases hi : i < next
  · exact hfirst i hlow hi
  · exact hrest i (Nat.le_of_not_lt hi) hhigh

theorem ReadableNodes.container
    (hcontainer : Graph.isContainer (graph.node first).tag = true)
    {filling : Filling} (hfills : IsFilling graph first filling)
    (hparts : ReadableNodes graph (first + 1) last) :
    ReadableNodes graph first last := by
  intro i hlow hhigh
  rcases Nat.eq_or_lt_of_le hlow with rfl | hless
  · exact ⟨⟨_, .container hcontainer⟩, fun _ => ⟨filling, hfills⟩⟩
  · exact hparts i hless hhigh

theorem exists_parts_of_readable {places : List Nat}
    (hreadable : ReadableNodes graph first last)
    (hlaid : Graph.Laid graph first last places) :
    ∃ parts, List.Forall₂ (IsPart graph) places parts :=
  exists_forall₂ fun i hmem =>
    (hreadable i (hlaid.inside i hmem).1 (hlaid.inside i hmem).2).part

mutual

theorem readableNodes : ∀ {value : Json} {first last : Nat}, value.fits = true →
    graph.Spans first last (treeOf value) → ReadableNodes graph first last
  | .null, _, _, _, ⟨hnode, hlast⟩ => hlast ▸ readableNodes_scalar hnode rfl
  | .bool value, _, _, _, ⟨hnode, hlast⟩ => by
      have hread := (isAtom_bool value).read
      rw [String.ofList_toList] at hread
      exact hlast ▸ readableNodes_scalar hnode hread
  | .int n, _, _, hfits, ⟨hnode, hlast⟩ => by
      have hread := (isAtom_int (of_decide_eq_true hfits)).read
      rw [String.ofList_toList] at hread
      exact hlast ▸ readableNodes_scalar hnode hread
  | .float value, _, _, _, ⟨hnode, hlast⟩ =>
      hlast ▸ readableNodes_scalar hnode (isAtom_float value).read
  | .text _, _, _, _, ⟨hnode, hlast⟩ => hlast ▸ readableNodes_scalar hnode rfl
  | .array _, _, _, hfits, ⟨places, hnode, hitems⟩ => by
      have hreadable := readableNodes_items hfits hitems
      obtain ⟨parts, hparts⟩ := exists_parts_of_readable hreadable hitems.laid
      exact hreadable.container (by rw [hnode]; rfl) (.list hnode hparts)
  | .object _, _, _, hfits, ⟨places, hnode, hentries⟩ => by
      obtain ⟨hreadable, pairs, hpairs⟩ := readableNodes_fields hfits hentries
      exact hreadable.container (by rw [hnode]; rfl) (.mapping hnode hpairs)

theorem readableNodes_items :
    ∀ {items : List Json} {first last : Nat} {places : List Nat},
      Json.fitAll items = true →
        graph.SpansItems first last places (itemTrees items) →
    ReadableNodes graph first last
  | [], _, _, _, _, ⟨_, hlast⟩ => fun i hlow hhigh => by omega
  | _ :: _, _, _, _, hfits, ⟨next, more, _, hitem, hrest⟩ => by
      obtain ⟨hfirst, hlater⟩ := Bool.and_eq_true_iff.mp hfits
      exact (readableNodes hfirst hitem).append
        (readableNodes_items hlater hrest)

theorem readableNodes_fields :
    ∀ {entries : List (String × Json)} {first last : Nat}
    {places : List (Nat × Nat)}, Json.fieldsFit entries = true →
    graph.SpansEntries first last places (entryTrees entries) →
    ReadableNodes graph first last ∧ ∃ pairs : List (Scalar × Part),
      List.Forall₂ (fun place pair => IsPart graph place.1 (.scalar pair.1) ∧
        IsPart graph place.2 pair.2) places pairs
  | [], _, _, _, _, ⟨hplaces, hlast⟩ =>
      ⟨fun i hlow hhigh => by omega, [], hplaces ▸ .nil⟩
  | (key, _) :: _, _, _, _, hfits,
      ⟨middle, next, more, hplaces, ⟨hnode, hmiddle⟩, hvalue, hrest⟩ => by
        obtain ⟨hfirst, hlater⟩ := Bool.and_eq_true_iff.mp hfits
        subst hplaces hmiddle
        have hkey := readableNodes_scalar hnode
          (show Graph.readAtom .str key = .ok (.text key) from rfl)
        have hreadable := readableNodes hfirst hvalue
        obtain ⟨hmore, pairs, hpairs⟩ := readableNodes_fields hlater hrest
        obtain ⟨part, hpart⟩ := (hreadable _ (Nat.le_refl _) hvalue.lt).part
        exact ⟨hkey.append (hreadable.append hmore), (.text key, part) :: pairs,
          .cons ⟨.scalar hnode rfl, hpart⟩ hpairs⟩

end

theorem readable_of_spans {value : Json} (hfits : value.fits = true)
    (hspans : graph.Spans 0 graph.size (treeOf value)) : Readable graph := by
  have hnodes := readableNodes hfits hspans
  exact ⟨fun i hi => (hnodes i (Nat.zero_le i) hi).part,
    fun i hi => (hnodes i (Nat.zero_le i) hi).filling,
    fun i hi c hc => (hspans.laid.behind i (Nat.zero_le i) hi c hc).2.1⟩

/-- Containers that are filled as the graph says, with all containers that are
parts of them. -/
structure Filled (graph : Graph) (filled : List (Nat × Filling)) : Prop where
  fills : ∀ i filling, filled.lookup i = some filling →
    IsFilling graph i filling
  closed : ∀ i ∈ filled.map Prod.fst, ∀ c ∈ graph.children i,
    Graph.isContainer (graph.node c).tag = true → c ∈ filled.map Prod.fst

theorem exists_lookup {filled : List (Nat × Filling)} {i : Nat}
    (hmem : i ∈ filled.map Prod.fst) :
    ∃ filling, filled.lookup i = some filling := by
  induction filled with
  | nil => cases hmem
  | cons entry rest ih =>
      rw [List.lookup_cons]
      split
      · exact ⟨_, rfl⟩
      · next hne =>
          rw [List.map_cons, List.mem_cons] at hmem
          exact ih (hmem.resolve_left fun heq => by simp [heq] at hne)

theorem mem_of_lookup {filled : List (Nat × Filling)} {i : Nat}
    {filling : Filling} (hlookup : filled.lookup i = some filling) :
    i ∈ filled.map Prod.fst := by
  induction filled with
  | nil => cases hlookup
  | cons entry rest ih =>
      rw [List.lookup_cons] at hlookup
      split at hlookup
      · next heq => exact eq_of_beq heq ▸ List.mem_cons_self
      · exact List.mem_cons_of_mem _ (ih hlookup)

theorem Works.Sound.toFilled {done : Works} (hsound : done.Sound graph [])
    (hwaiting : done.waiting = []) :
    Filled graph done.filled ∧ ∀ i ∈ done.met,
      i ∈ done.filled.map Prod.fst := by
  have hplaces := hsound.places
  rw [hwaiting, List.append_nil, List.nil_append] at hplaces
  exact ⟨⟨hsound.filled, fun i hi c hc htag =>
    hplaces.mem_iff.mp (hsound.closed i hi c hc htag)⟩,
    fun i hi => hplaces.mem_iff.mp hi⟩

section

variable {filled : List (Nat × Filling)}

theorem isPart_scalar {i : Nat} {part : Part} {tag : Tag} {text : String}
    {value : Scalar} (hpart : IsPart graph i part)
    (hnode : graph.node i = ⟨tag, .scalar text⟩)
    (hread : Graph.readAtom tag text = .ok value) (fuel : Nat)
    (above : List Nat) :
    Unrolling.part ⟨filled, []⟩ fuel above part = .scalar value := by
  rw [hpart.unique (.scalar hnode hread), Unrolling.part_scalar]

theorem unrolled_container (hfilled : Filled graph filled) {i : Nat}
    {part : Part} (hpart : IsPart graph i part)
    (hcontainer : Graph.isContainer (graph.node i).tag = true)
    (hmem : i ∈ filled.map Prod.fst) {above : List Nat} (habove : i ∉ above)
    (fuel : Nat) :
    ∃ filling, IsFilling graph i filling ∧
      Unrolling.part ⟨filled, []⟩ (fuel + 1) above part =
        match filling with
        | .list parts =>
            .list none
              (parts.map (Unrolling.part ⟨filled, []⟩ fuel (i :: above)))
        | .mapping entries =>
            .mapping none (entries.map fun entry =>
              (entry.1, Unrolling.part ⟨filled, []⟩ fuel (i :: above) entry.2))
        | .set elements => .set none elements
        | .pairs list =>
            .list none (list.map fun (a, b) =>
              .pair (Unrolling.part ⟨filled, []⟩ fuel (i :: above) a)
                (Unrolling.part ⟨filled, []⟩ fuel (i :: above) b)) := by
  obtain ⟨filling, hlookup⟩ := exists_lookup hmem
  refine ⟨filling, hfilled.fills i filling hlookup, ?_⟩
  rw [hpart.unique (.container hcontainer), Unrolling.part_container,
    if_neg (by simpa using habove)]
  simp only [hlookup]
  cases filling <;> rfl

theorem unrolled_sequence (hfilled : Filled graph filled) {i : Nat}
    {part : Part} {places : List Nat} (hpart : IsPart graph i part)
    (hnode : graph.node i = ⟨.seq, .sequence places⟩)
    (hmem : Graph.isContainer (graph.node i).tag = true →
      i ∈ filled.map Prod.fst) {above : List Nat} (habove : i ∉ above)
      (fuel : Nat) :
    ∃ parts, List.Forall₂ (IsPart graph) places parts ∧
      (∀ c ∈ places, Graph.isContainer (graph.node c).tag = true →
        c ∈ filled.map Prod.fst) ∧
      Unrolling.part ⟨filled, []⟩ (fuel + 1) above part =
        .list none
          (parts.map (Unrolling.part ⟨filled, []⟩ fuel (i :: above))) := by
  have hcontainer : Graph.isContainer (graph.node i).tag = true := by
    rw [hnode]; rfl
  have hmem := hmem hcontainer
  have hchildren : graph.children i = places := by rw [Graph.children, hnode]
  obtain ⟨filling, hfills, hshown⟩ :=
    unrolled_container hfilled hpart hcontainer hmem habove fuel
  cases hfills with
  | list hsame hparts =>
      cases hnode.symm.trans hsame
      exact ⟨_, hparts, hchildren ▸ hfilled.closed i hmem, hshown⟩
  | mapping hsame _ => cases hnode.symm.trans hsame

theorem unrolled_mapping (hfilled : Filled graph filled) {i : Nat} {part : Part}
    {places : List (Nat × Nat)} (hpart : IsPart graph i part)
    (hnode : graph.node i = ⟨.map, .mapping places⟩)
    (hmem : Graph.isContainer (graph.node i).tag = true →
      i ∈ filled.map Prod.fst) {above : List Nat}
    (habove : i ∉ above) (fuel : Nat) :
    ∃ pairs : List (Scalar × Part),
      List.Forall₂ (fun place pair => IsPart graph place.1 (.scalar pair.1) ∧
        IsPart graph place.2 pair.2) places pairs ∧
      (∀ place ∈ places, Graph.isContainer (graph.node place.2).tag = true →
        place.2 ∈ filled.map Prod.fst) ∧
      Unrolling.part ⟨filled, []⟩ (fuel + 1) above part =
        .mapping none (Entries.ofPairs Scalar.same (pairs.map fun pair =>
          (pair.1, Unrolling.part ⟨filled, []⟩ fuel (i :: above) pair.2))) := by
  have hcontainer : Graph.isContainer (graph.node i).tag = true := by
    rw [hnode]; rfl
  have hmem := hmem hcontainer
  have hchild (place : Nat × Nat) (hplace : place ∈ places) :
      place.2 ∈ graph.children i := by
    rw [Graph.children, hnode]
    exact List.mem_flatMap.mpr ⟨place, hplace, by simp⟩
  obtain ⟨filling, hfills, hshown⟩ :=
    unrolled_container hfilled hpart hcontainer hmem habove fuel
  cases hfills with
  | list hsame _ => cases hnode.symm.trans hsame
  | @mapping _ pairs hsame hpairs =>
      cases hnode.symm.trans hsame
      have hkeys : ∀ a b : Scalar,
          Scalar.same (id a) (id b) = Scalar.same a b := fun _ _ => rfl
      refine ⟨pairs, hpairs, fun place hplace =>
        hfilled.closed i hmem _ (hchild place hplace), ?_⟩
      exact hshown.trans
        (congrArg (Value.mapping none)
          (Entries.ofPairs_map hkeys
            (Unrolling.part ⟨filled, []⟩ fuel (i :: above)) pairs).symm)

theorem below_cons {first : Nat} {above : List Nat}
    (habove : ∀ i ∈ above, i < first) :
    first ∉ above ∧ ∀ i ∈ first :: above, i < first + 1 :=
  ⟨fun hmem => Nat.lt_irrefl _ (habove first hmem),
    List.forall_mem_cons.mpr
      ⟨Nat.lt_succ_self _, fun i hi => Nat.lt_succ_of_lt (habove i hi)⟩⟩

mutual

theorem unrolled (hfilled : Filled graph filled) :
    ∀ {value : Json} {first last fuel : Nat} {above : List Nat} {part : Part},
      value.fits = true → graph.Spans first last (treeOf value) →
    (∀ i ∈ above, i < first) → last ≤ first + fuel → IsPart graph first part →
    (Graph.isContainer (graph.node first).tag = true →
      first ∈ filled.map Prod.fst) →
    Unrolling.part ⟨filled, []⟩ fuel above part = value.merged.toValue
  | .null, _, _, fuel, above, _, _, ⟨hnode, _⟩, _, _, hpart, _ =>
      isPart_scalar hpart hnode rfl fuel above
  | .bool value, _, _, fuel, above, _, _, ⟨hnode, _⟩, _, _, hpart, _ => by
      have hread := (isAtom_bool value).read
      rw [String.ofList_toList] at hread
      exact isPart_scalar hpart hnode hread fuel above
  | .int n, _, _, fuel, above, _, hfits, ⟨hnode, _⟩, _, _, hpart, _ => by
      have hread := (isAtom_int (of_decide_eq_true hfits)).read
      rw [String.ofList_toList] at hread
      exact isPart_scalar hpart hnode hread fuel above
  | .float value, _, _, fuel, above, _, _, ⟨hnode, _⟩, _, _, hpart, _ =>
      isPart_scalar hpart hnode (isAtom_float value).read fuel above
  | .text _, _, _, fuel, above, _, _, ⟨hnode, _⟩, _, _, hpart, _ =>
      isPart_scalar hpart hnode rfl fuel above
  | .array items, first, last, fuel, above, part, hfits,
      ⟨places, hnode, hitems⟩, habove, hfuel, hpart, hmem => by
      obtain ⟨houtside, hbelow⟩ := below_cons habove
      have hle := hitems.le
      obtain ⟨less, rfl⟩ : ∃ less, fuel = less + 1 :=
        Nat.exists_eq_add_of_le' (by omega)
      obtain ⟨parts, hparts, hclosed, hshown⟩ :=
        unrolled_sequence hfilled hpart hnode hmem houtside less
      rw [hshown]
      exact congrArg (Value.list none)
        (unrolled_items hfilled hfits hitems hbelow (by omega) hparts hclosed)
  | .object entries, first, last, fuel, above, part, hfits,
      ⟨places, hnode, hentries⟩, habove, hfuel, hpart, hmem => by
      obtain ⟨houtside, hbelow⟩ := below_cons habove
      have hle := hentries.le
      obtain ⟨less, rfl⟩ : ∃ less, fuel = less + 1 :=
        Nat.exists_eq_add_of_le' (by omega)
      obtain ⟨pairs, hpairs, hclosed, hshown⟩ :=
        unrolled_mapping hfilled hpart hnode hmem houtside less
      rw [hshown, unrolled_fields hfilled hfits hentries hbelow (by omega)
        hpairs hclosed]
      simp only [Json.merged, Json.toValue, Json.toFields_uniqueEntries]

theorem unrolled_items (hfilled : Filled graph filled) : ∀ {items : List Json}
    {first last fuel : Nat} {places above : List Nat} {parts : List Part},
    Json.fitAll items = true →
      graph.SpansItems first last places (itemTrees items) →
    (∀ i ∈ above, i < first) → last ≤ first + fuel →
      List.Forall₂ (IsPart graph) places parts →
    (∀ c ∈ places, Graph.isContainer (graph.node c).tag = true →
      c ∈ filled.map Prod.fst) →
    parts.map (Unrolling.part ⟨filled, []⟩ fuel above) =
      Json.toValues (Json.mergedItems items)
  | [], _, _, _, _, _, _, _, ⟨hplaces, _⟩, _, _, hparts, _ => by
      subst hplaces
      cases hparts
      rfl
  | _ :: _, _, _, _, _, above, _, hfits, ⟨next, more, hplaces, hitem, hrest⟩,
      habove, hfuel, hparts, hmem => by
      subst hplaces
      obtain ⟨hfirst, hlater⟩ := Bool.and_eq_true_iff.mp hfits
      have hlt := hitem.lt
      have hle := hrest.le
      cases hparts with
      | cons hpart hparts =>
          obtain ⟨hown, hothers⟩ := List.forall_mem_cons.mp hmem
          refine congrArg₂ List.cons
            (unrolled hfilled hfirst hitem habove (by omega) hpart hown)
            (unrolled_items hfilled hlater hrest (fun i hi => ?_)
              (by omega) hparts hothers)
          exact Nat.lt_trans (habove i hi) hlt

theorem unrolled_fields (hfilled : Filled graph filled) :
    ∀ {entries : List (String × Json)} {first last fuel : Nat}
    {places : List (Nat × Nat)} {above : List Nat}
    {pairs : List (Scalar × Part)}, Json.fieldsFit entries = true →
    graph.SpansEntries first last places (entryTrees entries) →
    (∀ i ∈ above, i < first) → last ≤ first + fuel →
    List.Forall₂ (fun place pair => IsPart graph place.1 (.scalar pair.1) ∧
      IsPart graph place.2 pair.2) places pairs →
    (∀ place ∈ places, Graph.isContainer (graph.node place.2).tag = true →
      place.2 ∈ filled.map Prod.fst) →
    pairs.map (fun pair =>
        (pair.1, Unrolling.part ⟨filled, []⟩ fuel above pair.2)) =
      Json.toFields (Json.mergedFields entries)
  | [], _, _, _, _, _, _, _, ⟨hplaces, _⟩, _, _, hpairs, _ => by
      subst hplaces
      cases hpairs
      rfl
  | (key, value) :: _, first, _, fuel, _, above, _, hfits,
      ⟨middle, next, more, hplaces, ⟨hnode, hmiddle⟩, hvalue, hrest⟩,
      habove, hfuel, hpairs, hmem => by
      subst hplaces hmiddle
      obtain ⟨hfirst, hlater⟩ := Bool.and_eq_true_iff.mp hfits
      have hlt := hvalue.lt
      have hle := hrest.le
      cases hpairs with
      | @cons _ pair _ _ hpair hpairs =>
          obtain ⟨hown, hothers⟩ := List.forall_mem_cons.mp hmem
          have hkey : pair.1 = .text key := by
            have hkey := hpair.1.unique
              (.scalar hnode (show Graph.readAtom .str key = .ok _ from rfl))
            exact Part.scalar.inj hkey
          have hshown : Unrolling.part ⟨filled, []⟩ fuel above pair.2 =
              value.merged.toValue :=
            unrolled hfilled hfirst hvalue
              (fun i hi => Nat.lt_succ_of_lt (habove i hi)) (by omega)
              hpair.2 hown
          refine congrArg₂ List.cons (congrArg₂ Prod.mk hkey hshown)
            (unrolled_fields hfilled hlater hrest (fun i hi => ?_)
              (by omega) hpairs hothers)
          exact Nat.lt_trans (habove i hi) (Nat.lt_of_succ_lt hlt)

end

end

theorem filterMap_node?_sublist {places : List Nat} {parts : List Part}
    (hparts : List.Forall₂ (IsPart graph) places parts) :
    (parts.filterMap Part.node?).Sublist places := by
  induction hparts with
  | nil => exact List.Sublist.slnil
  | cons hpart _ ih =>
      cases hpart with
      | scalar => exact ih.cons _
      | container => exact ih.cons_cons _

theorem filterMap_pairs_sublist {places : List (Nat × Nat)}
    {pairs : List (Scalar × Part)}
    (hpairs : List.Forall₂
      (fun place pair => IsPart graph place.1 (.scalar pair.1) ∧
      IsPart graph place.2 pair.2) places pairs) :
    (pairs.filterMap fun pair => pair.2.node?).Sublist
      (places.flatMap fun place => [place.1, place.2]) := by
  induction hpairs with
  | nil => exact List.Sublist.slnil
  | @cons place pair _ _ hpair _ ih =>
      rw [List.flatMap_cons, List.filterMap_cons]
      cases hpart : pair.2 with
      | scalar value => exact (ih.cons _).cons _
      | container i =>
          have hsame := hpair.2
          rw [hpart] at hsame
          cases hsame
          exact (ih.cons_cons _).cons _

theorem IsFilling.mentions_subperm {i : Nat} {filling : Filling}
    (hfills : IsFilling graph i filling) :
    filling.mentions.Subperm (graph.children i) := by
  cases hfills with
  | list hnode hparts =>
      rw [Graph.children, hnode]
      exact (filterMap_node?_sublist hparts).subperm
  | mapping hnode hpairs =>
      rw [Graph.children, hnode]
      exact (Entries.filterMap_ofPairs_subperm Scalar.same Part.node? _).trans
        (filterMap_pairs_sublist hpairs).subperm

theorem nodup_of_subperm {first second : List α} (hsub : first.Subperm second)
    (hnodup : second.Nodup) : first.Nodup := by
  obtain ⟨middle, hperm, hsublist⟩ := hsub
  exact hperm.nodup_iff.mp (hnodup.sublist hsublist)

theorem nodup_reachable (filled : List (Nat × Filling)) (fuel : Nat)
    {seen : List Nat} (hnodup : seen.Nodup) (next : List Nat) :
    (reachable filled fuel seen next).Nodup := by
  induction fuel generalizing seen next with
  | zero => exact hnodup
  | succ fuel ih =>
      cases next with
      | nil => exact hnodup
      | cons i next =>
          rw [reachable]
          split
          · exact ih hnodup next
          · next hnew =>
              exact ih (List.nodup_cons.mpr ⟨by simpa using hnew, hnodup⟩) _

/-- What a container mentions, if it is filled. -/
def mentionsOf (filled : List (Nat × Filling)) (i : Nat) : List Nat :=
  ((filled.lookup i).map Filling.mentions).getD []

theorem mentionsOf_cases {filled : List (Nat × Filling)}
    (hfilled : Filled graph filled)
    (hinside : ∀ i ∈ filled.map Prod.fst, i < graph.size) (i : Nat) :
    mentionsOf filled i = [] ∨
      i < graph.size ∧ (mentionsOf filled i).Subperm (graph.children i) := by
  unfold mentionsOf
  cases hlookup : filled.lookup i with
  | none => exact .inl rfl
  | some filling =>
      exact .inr ⟨hinside i (mem_of_lookup hlookup),
        (hfilled.fills i filling hlookup).mentions_subperm⟩

theorem shared_eq_nil {filled : List (Nat × Filling)}
    (hfilled : Filled graph filled) (hlaid : graph.Laid 0 graph.size [0])
    (hinside : ∀ i ∈ filled.map Prod.fst, i < graph.size) :
    shared filled 0 = [] := by
  have hmentions := mentionsOf_cases hfilled hinside
  have hnodup (i : Nat) : (mentionsOf filled i).Nodup := by
    rcases hmentions i with hnone | ⟨hi, hsub⟩
    · rw [hnone]
      exact List.nodup_nil
    · exact nodup_of_subperm hsub (hlaid.distinct i (Nat.zero_le i) hi)
  have hchild {i c : Nat} (hc : c ∈ mentionsOf filled i) : i < graph.size ∧
      c ∈ graph.children i := by
    rcases hmentions i with hnone | ⟨hi, hsub⟩
    · rw [hnone] at hc
      cases hc
    · exact ⟨hi, hsub.subset hc⟩
  have hapart {i j : Nat} (hne : i ≠ j) :
      (mentionsOf filled i).Disjoint (mentionsOf filled j) := by
    intro c hci hcj
    obtain ⟨hi, hci⟩ := hchild hci
    obtain ⟨hj, hcj⟩ := hchild hcj
    rcases Nat.lt_or_gt_of_ne hne with hless | hless
    · exact hlaid.apart i j (Nat.zero_le i) hless hj hci hcj
    · exact hlaid.apart j i (Nat.zero_le j) hless hi hcj hci
  have hall {live : List Nat} (hlive : live.Nodup) :
      (0 :: live.flatMap (mentionsOf filled)).Nodup := by
    refine List.nodup_cons.mpr ⟨fun hmem => ?_,
      List.nodup_flatMap.mpr
        ⟨fun i _ => hnodup i, hlive.imp fun hne => hapart hne⟩⟩
    obtain ⟨i, -, hc⟩ := List.mem_flatMap.mp hmem
    obtain ⟨hi, hc⟩ := hchild hc
    exact Nat.not_lt_zero i (hlaid.behind i (Nat.zero_le i) hi 0 hc).1
  have hmany {live : List Nat} (hlive : live.Nodup) :
      (live.filter fun i =>
        1 < (0 :: live.flatMap (mentionsOf filled)).count i) = [] := by
    rw [List.filter_eq_nil_iff]
    intro i _ hcount
    refine absurd (of_decide_eq_true hcount) (Nat.not_lt.mpr ?_)
    exact List.nodup_iff_count_le_one.mp (hall hlive) i
  unfold mentionsOf at hmany
  simp only [shared, hmany (nodup_reachable filled _ List.nodup_nil [0]),
    List.any_nil, Bool.false_eq_true, if_false]

theorem build_treeOf {value : Json} (hfits : value.fits = true)
    (hspans : graph.Spans 0 graph.size (treeOf value)) :
    build 0 graph = .ok value.merged.toValue := by
  have hreadable := readable_of_spans hfits hspans
  have hstart : (Works.mk graph graph.mergeFuel [] [] [] []).Sound graph [] :=
    ⟨rfl, rfl, by simp, by simp, List.nodup_nil, .nil, by simp, by simp⟩
  obtain ⟨part, hpart⟩ := hreadable.part 0 hspans.lt
  obtain ⟨works, hworks, hsound, hgrows, hmet⟩ :=
    Works.exists_part hstart hpart hspans.lt
  have hnone : works.filled = [] := hgrows.filled
  have hfuel : graph.size < graph.size + 1 + works.filled.length := by
    rw [hnone]
    exact Nat.lt_succ_self _
  obtain ⟨done, hdone, hsound, hwaiting, hmore⟩ :=
    Works.exists_fillAll hreadable hsound hfuel
  obtain ⟨hfilled, hmem⟩ := hsound.toFilled hwaiting
  have hinside : ∀ i ∈ done.filled.map Prod.fst, i < graph.size := fun i hi =>
    (hsound.met i (by rw [hsound.places.mem_iff]; simp [hi])).1
  have hshared := shared_eq_nil hfilled hspans.laid hinside
  have hshown : Unrolling.part ⟨done.filled, []⟩ (graph.size + 1) [] part =
      value.merged.toValue :=
    unrolled hfilled hfits hspans (by simp) (by omega) hpart fun htag =>
      hmem 0 (hmore (hmet htag))
  refine bind_eq_ok_iff.mpr ⟨_, hworks, bind_eq_ok_iff.mpr ⟨_, hdone, ?_⟩⟩
  rw [← hshown]
  cases hpart with
  | scalar => rfl
  | container =>
      simp only [hshared]

end Fragments.Yaml
