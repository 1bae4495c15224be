import Fragments.Proofs.Data.Outcome
import Fragments.Proofs.Yaml.Trees
import Fragments.Yaml.Graph

namespace Fragments.Yaml.Graph

mutual

/-- Whether the nodes from `first` up to `last` are those of a tree, which has
no alias. -/
def Spans (graph : Graph) (first last : Nat) : Tree → Prop
  | .alias _ => False
  | .scalar _ tag text =>
      graph.node first = ⟨tag, .scalar text⟩ ∧ last = first + 1
  | .sequence _ tag items =>
      ∃ places, graph.node first = ⟨tag, .sequence places⟩ ∧
        SpansItems graph (first + 1) last places items
  | .mapping _ tag entries =>
      ∃ places, graph.node first = ⟨tag, .mapping places⟩ ∧
        SpansEntries graph (first + 1) last places entries

def SpansItems (graph : Graph) (first last : Nat) (places : List Nat) :
    List Tree → Prop
  | [] => places = [] ∧ last = first
  | item :: rest =>
      ∃ next more, places = first :: more ∧ Spans graph first next item ∧
        SpansItems graph next last more rest

def SpansEntries (graph : Graph) (first last : Nat)
    (places : List (Nat × Nat)) :
    List (Tree × Tree) → Prop
  | [] => places = [] ∧ last = first
  | (key, value) :: rest =>
      ∃ middle next more, places = (first, middle) :: more ∧
        Spans graph first middle key ∧ Spans graph middle next value ∧
          SpansEntries graph next last more rest

end

variable {graph other : Graph} {first last : Nat}

mutual

theorem Spans.lt : ∀ {tree : Tree} {first last : Nat},
    Spans graph first last tree → first < last
  | .alias _, _, _, hspans => hspans.elim
  | .scalar _ _ _, _, _, hspans => hspans.2 ▸ Nat.lt_succ_self _
  | .sequence _ _ _, _, _, ⟨_, _, hitems⟩ => hitems.le
  | .mapping _ _ _, _, _, ⟨_, _, hentries⟩ => hentries.le

theorem SpansItems.le :
    ∀ {items : List Tree} {first last : Nat} {places : List Nat},
      SpansItems graph first last places items → first ≤ last
  | [], _, _, _, hspans => Nat.le_of_eq hspans.2.symm
  | _ :: _, _, _, _, ⟨_, _, _, hitem, hrest⟩ =>
      Nat.le_trans (Nat.le_of_lt hitem.lt) hrest.le

theorem SpansEntries.le : ∀ {entries : List (Tree × Tree)} {first last : Nat}
    {places : List (Nat × Nat)}, SpansEntries graph first last places entries →
      first ≤ last
  | [], _, _, _, hspans => Nat.le_of_eq hspans.2.symm
  | _ :: _, _, _, _, ⟨_, _, _, _, hkey, hvalue, hrest⟩ =>
      Nat.le_trans (Nat.le_of_lt (Nat.lt_trans hkey.lt hvalue.lt)) hrest.le

end

def SameOn (graph other : Graph) (first last : Nat) : Prop :=
  ∀ i, first ≤ i → i < last → other.node i = graph.node i

theorem SameOn.mono {inner outer : Nat} (hsame : SameOn graph other first last)
    (hfirst : first ≤ inner) (hlast : outer ≤ last) :
    SameOn graph other inner outer :=
  fun i hlow hhigh =>
    hsame i (Nat.le_trans hfirst hlow) (Nat.lt_of_lt_of_le hhigh hlast)

mutual

theorem Spans.of_sameOn : ∀ {tree : Tree} {first last : Nat},
    Spans graph first last tree →
    SameOn graph other first last → Spans other first last tree
  | .alias _, _, _, hspans, _ => hspans
  | .scalar _ _ _, first, _, ⟨hnode, hlast⟩, hsame =>
      ⟨(hsame first (Nat.le_refl _) (hlast ▸ Nat.lt_succ_self _)).trans hnode,
        hlast⟩
  | .sequence _ _ _, first, last, ⟨places, hnode, hitems⟩, hsame =>
      ⟨places, (hsame first (Nat.le_refl _) hitems.le).trans hnode,
        hitems.of_sameOn (hsame.mono (Nat.le_succ first) (Nat.le_refl last))⟩
  | .mapping _ _ _, first, last, ⟨places, hnode, hentries⟩, hsame =>
      ⟨places, (hsame first (Nat.le_refl _) hentries.le).trans hnode,
        hentries.of_sameOn (hsame.mono (Nat.le_succ first) (Nat.le_refl last))⟩

theorem SpansItems.of_sameOn :
    ∀ {items : List Tree} {first last : Nat} {places : List Nat},
      SpansItems graph first last places items → SameOn graph other first last →
    SpansItems other first last places items
  | [], _, _, _, hspans, _ => hspans
  | _ :: _, _, _, _, ⟨next, more, hplaces, hitem, hrest⟩, hsame =>
      ⟨next, more, hplaces,
        hitem.of_sameOn (hsame.mono (Nat.le_refl _) hrest.le),
        hrest.of_sameOn (hsame.mono (Nat.le_of_lt hitem.lt) (Nat.le_refl _))⟩

theorem SpansEntries.of_sameOn :
    ∀ {entries : List (Tree × Tree)} {first last : Nat}
    {places : List (Nat × Nat)}, SpansEntries graph first last places entries →
    SameOn graph other first last → SpansEntries other first last places entries
  | [], _, _, _, hspans, _ => hspans
  | _ :: _, first, last, _,
      ⟨middle, next, more, hplaces, hkey, hvalue, hrest⟩, hsame =>
        have hafter : next ≤ last := hrest.le
        have hfar : first ≤ next :=
          Nat.le_of_lt (Nat.lt_trans hkey.lt hvalue.lt)
        ⟨middle, next, more, hplaces,
          hkey.of_sameOn
            (hsame.mono (Nat.le_refl _)
              (Nat.le_trans (Nat.le_of_lt hvalue.lt) hafter)),
          hvalue.of_sameOn (hsame.mono (Nat.le_of_lt hkey.lt) hafter),
          hrest.of_sameOn (hsame.mono hfar (Nat.le_refl _))⟩

end

theorem node_push (graph : Graph) (node : GraphNode) (i : Nat) :
    Graph.node (graph.push node) i = if i = graph.size then node
      else graph.node i := by
  unfold Graph.node
  rw [Array.getD_eq_getD_getElem?, Array.getD_eq_getD_getElem?,
    Array.getElem?_push]
  split <;> rfl

theorem node_setContent {place : Nat} (hplace : place < graph.size)
    (content : Content) (i : Nat) :
    (graph.setContent place content).node i =
      if i = place then ⟨(graph.node place).tag, content⟩
        else graph.node i := by
  unfold Graph.node Graph.setContent
  rw [Array.getD_eq_getD_getElem?, Array.getD_eq_getD_getElem?,
    Array.getD_eq_getD_getElem?, Array.getElem?_modify]
  by_cases heq : i = place
  · subst heq
    simp [hplace]
  · simp [heq, Ne.symm heq]

theorem size_setContent (graph : Graph) (place : Nat) (content : Content) :
    (graph.setContent place content).size = graph.size := Array.size_modify

/-- The nodes of the tree follow those of the draft, which stay. -/
def Adds (tree : Tree) : Prop :=
  ∀ draft : Draft, ∃ after, addTree draft tree = .ok (draft.graph.size, after) ∧
    SameOn draft.graph after.graph 0 draft.graph.size ∧
    Spans after.graph draft.graph.size after.graph.size tree

theorem adds_scalar (tag : Tag) (text : String) :
    Adds (.scalar none tag text) := by
  intro draft
  refine ⟨_, rfl, fun i _ hlt => ?_, ?_, Array.size_push _⟩
  · rw [node_push, if_neg (Nat.ne_of_lt hlt)]
  · rw [node_push, if_pos rfl]

theorem exists_addItems {items : List Tree} (hitems : ∀ item ∈ items, Adds item)
    (draft : Draft) :
    ∃ places after, addItems draft items = .ok (places, after) ∧
      SameOn draft.graph after.graph 0 draft.graph.size ∧
      SpansItems after.graph draft.graph.size after.graph.size places
        items := by
  induction items generalizing draft with
  | nil => exact ⟨[], draft, rfl, fun _ _ _ => rfl, rfl, rfl⟩
  | cons item rest ih =>
      obtain ⟨next, hitem, hsame, hspans⟩ :=
        hitems item List.mem_cons_self draft
      obtain ⟨places, after, hrest, hlater, hmore⟩ :=
        ih (fun other hmem => hitems other (List.mem_cons_of_mem item hmem))
          next
      refine ⟨draft.graph.size :: places, after,
        bind_eq_ok_iff.mpr ⟨_, hitem, bind_eq_ok_iff.mpr ⟨_, hrest, rfl⟩⟩,
        fun i hlow hhigh => ?_, next.graph.size, places, rfl,
        hspans.of_sameOn (hlater.mono (Nat.zero_le _) (Nat.le_refl _)), hmore⟩
      rw [hlater i hlow (Nat.lt_trans hhigh hspans.lt), hsame i hlow hhigh]

theorem fill_started {draft after : Draft} {tag : Tag} {empty : Content}
    (content : Content)
    (hsame : SameOn (draft.graph.push ⟨tag, empty⟩) after.graph 0
      (draft.graph.size + 1)) (hsize : draft.graph.size < after.graph.size) :
    (after.fill draft.graph.size content).graph.size = after.graph.size ∧
      (after.fill draft.graph.size content).graph.node draft.graph.size =
        ⟨tag, content⟩ ∧
      SameOn draft.graph (after.fill draft.graph.size content).graph 0
        draft.graph.size ∧
      SameOn after.graph (after.fill draft.graph.size content).graph
        (draft.graph.size + 1) after.graph.size := by
  have hnode (i : Nat) : (after.fill draft.graph.size content).graph.node i =
      if i = draft.graph.size then
        ⟨(after.graph.node draft.graph.size).tag, content⟩
      else after.graph.node i := node_setContent hsize content i
  refine ⟨size_setContent _ _ _, ?_, fun i hlow hhigh => ?_, fun i hlow _ => ?_⟩
  · rw [hnode, if_pos rfl, hsame _ (Nat.zero_le _) (Nat.lt_succ_self _),
      node_push, if_pos rfl]
  · rw [hnode, if_neg (Nat.ne_of_lt hhigh),
      hsame i hlow (Nat.lt_succ_of_lt hhigh), node_push,
      if_neg (Nat.ne_of_lt hhigh)]
  · rw [hnode, if_neg (Nat.ne_of_gt hlow)]

theorem adds_sequence {items : List Tree} (hitems : ∀ item ∈ items, Adds item)
    (tag : Tag) :
    Adds (.sequence none tag items) := by
  intro draft
  obtain ⟨places, after, hadded, hsame, hspans⟩ :=
    exists_addItems hitems ⟨draft.graph.push ⟨tag, .sequence []⟩, draft.anchors⟩
  simp only [Array.size_push] at hsame hspans
  obtain ⟨hsize, hnode, hbefore, hparts⟩ :=
    fill_started (.sequence places) hsame (Nat.lt_of_succ_le hspans.le)
  refine ⟨_, bind_eq_ok_iff.mpr ⟨_, rfl, bind_eq_ok_iff.mpr ⟨_, hadded, rfl⟩⟩,
    hbefore, places, hnode, ?_⟩
  rw [hsize]
  exact hspans.of_sameOn hparts

theorem exists_addEntries {entries : List (Tree × Tree)}
    (hentries : ∀ entry ∈ entries, Adds entry.1 ∧ Adds entry.2)
    (draft : Draft) :
    ∃ places after, addEntries draft entries = .ok (places, after) ∧
      SameOn draft.graph after.graph 0 draft.graph.size ∧
      SpansEntries after.graph draft.graph.size after.graph.size places
        entries := by
  induction entries generalizing draft with
  | nil => exact ⟨[], draft, rfl, fun _ _ _ => rfl, rfl, rfl⟩
  | cons entry rest ih =>
      obtain ⟨key, value⟩ := entry
      obtain ⟨hkeyAdds, hvalueAdds⟩ := hentries _ List.mem_cons_self
      obtain ⟨middle, hkey, hsame, hkeySpans⟩ := hkeyAdds draft
      obtain ⟨next, hvalue, hlater, hvalueSpans⟩ := hvalueAdds middle
      obtain ⟨places, after, hrest, hlast, hmore⟩ :=
        ih (fun other hmem => hentries other (List.mem_cons_of_mem _ hmem)) next
      have hkept : SameOn middle.graph after.graph 0 middle.graph.size :=
        fun i hlow hhigh => by
          rw [hlast i hlow (Nat.lt_trans hhigh hvalueSpans.lt),
            hlater i hlow hhigh]
      refine ⟨(draft.graph.size, middle.graph.size) :: places, after,
        bind_eq_ok_iff.mpr ⟨_, hkey, bind_eq_ok_iff.mpr ⟨_, hvalue,
          bind_eq_ok_iff.mpr ⟨_, hrest, rfl⟩⟩⟩, fun i hlow hhigh => ?_,
        middle.graph.size, next.graph.size, places, rfl,
        hkeySpans.of_sameOn (hkept.mono (Nat.zero_le _) (Nat.le_refl _)),
        hvalueSpans.of_sameOn (hlast.mono (Nat.zero_le _) (Nat.le_refl _)),
        hmore⟩
      rw [hkept i hlow (Nat.lt_trans hhigh hkeySpans.lt), hsame i hlow hhigh]

theorem adds_mapping {entries : List (Tree × Tree)}
    (hentries : ∀ entry ∈ entries, Adds entry.1 ∧ Adds entry.2) (tag : Tag) :
    Adds (.mapping none tag entries) := by
  intro draft
  obtain ⟨places, after, hadded, hsame, hspans⟩ :=
    exists_addEntries hentries
      ⟨draft.graph.push ⟨tag, .mapping []⟩, draft.anchors⟩
  simp only [Array.size_push] at hsame hspans
  obtain ⟨hsize, hnode, hbefore, hparts⟩ :=
    fill_started (.mapping places) hsame (Nat.lt_of_succ_le hspans.le)
  refine ⟨_, bind_eq_ok_iff.mpr ⟨_, rfl, bind_eq_ok_iff.mpr ⟨_, hadded, rfl⟩⟩,
    hbefore, places, hnode, ?_⟩
  rw [hsize]
  exact hspans.of_sameOn hparts

mutual

theorem adds_treeOf : ∀ value : Json, Adds (treeOf value)
  | .null => adds_scalar _ _
  | .bool _ => adds_scalar _ _
  | .int _ => adds_scalar _ _
  | .float _ => adds_scalar _ _
  | .text _ => adds_scalar _ _
  | .array items => adds_sequence (adds_itemTrees items) _
  | .object entries => adds_mapping (adds_entryTrees entries) _

theorem adds_itemTrees :
    ∀ items : List Json, ∀ item ∈ itemTrees items, Adds item
  | [] => fun _ hmem => absurd hmem List.not_mem_nil
  | item :: rest =>
      List.forall_mem_cons.mpr ⟨adds_treeOf item, adds_itemTrees rest⟩

theorem adds_entryTrees : ∀ entries : List (String × Json),
    ∀ entry ∈ entryTrees entries, Adds entry.1 ∧ Adds entry.2
  | [] => fun _ hmem => absurd hmem List.not_mem_nil
  | (_, value) :: rest =>
      List.forall_mem_cons.mpr
        ⟨⟨adds_scalar _ _, adds_treeOf value⟩, adds_entryTrees rest⟩

end

/-- The graph of a value holds its tree and nothing else. -/
theorem ofTree_treeOf (value : Json) :
    ∃ graph, ofTree (treeOf value) = .ok (0, graph) ∧
      Spans graph 0 graph.size (treeOf value) := by
  obtain ⟨after, hadded, -, hspans⟩ := adds_treeOf value Draft.empty
  exact ⟨after.graph, bind_eq_ok_iff.mpr ⟨_, hadded, rfl⟩, hspans⟩

def children (graph : Graph) (i : Nat) : List Nat :=
  match (graph.node i).content with
  | .scalar _ => []
  | .sequence items => items
  | .mapping entries => entries.flatMap fun entry => [entry.1, entry.2]

/-- The nodes from `first` up to `last` are trees one behind the other, with
their roots `heads`. -/
structure Laid (graph : Graph) (first last : Nat)
    (heads : List Nat) : Prop where
  inside : ∀ i ∈ heads, first ≤ i ∧ i < last
  nodup : heads.Nodup
  behind : ∀ i, first ≤ i → i < last → ∀ c ∈ graph.children i, i < c ∧
    c < last ∧ c ∉ heads
  distinct : ∀ i, first ≤ i → i < last → (graph.children i).Nodup
  apart : ∀ i j, first ≤ i → i < j → j < last →
    (graph.children i).Disjoint (graph.children j)

theorem Laid.nil (graph : Graph) (first : Nat) : Laid graph first first [] where
  inside _ hmem := absurd hmem List.not_mem_nil
  nodup := List.nodup_nil
  behind _ _ _ := by omega
  distinct _ _ _ := by omega
  apart _ _ _ _ _ := by omega

theorem Laid.append {next : Nat} {heads more : List Nat}
    (hfirst : Laid graph first next heads) (hrest : Laid graph next last more)
    (hle : first ≤ next) (hnext : next ≤ last) :
    Laid graph first last (heads ++ more) where
  inside i hmem := by
    rcases List.mem_append.mp hmem with hmem | hmem
    · have := hfirst.inside i hmem
      omega
    · have := hrest.inside i hmem
      omega
  nodup := by
    refine List.nodup_append.mpr
      ⟨hfirst.nodup, hrest.nodup, fun i hi j hj => ?_⟩
    have := hfirst.inside i hi
    have := hrest.inside j hj
    omega
  behind i hlow hhigh c hc := by
    rw [List.mem_append, not_or]
    by_cases hi : i < next
    · obtain ⟨hlater, hlast, hhead⟩ := hfirst.behind i hlow hi c hc
      refine ⟨hlater, by omega, hhead, fun hmem => ?_⟩
      have := hrest.inside c hmem
      omega
    · obtain ⟨hlater, hlast, hhead⟩ := hrest.behind i (by omega) hhigh c hc
      refine ⟨hlater, hlast, fun hmem => ?_, hhead⟩
      have := hfirst.inside c hmem
      omega
  distinct i hlow hhigh := by
    by_cases hi : i < next
    · exact hfirst.distinct i hlow hi
    · exact hrest.distinct i (by omega) hhigh
  apart i j hlow hless hhigh := by
    by_cases hj : j < next
    · exact hfirst.apart i j hlow hless hj
    · by_cases hi : i < next
      · intro c hci hcj
        have := hfirst.behind i hlow hi c hci
        have := hrest.behind j (by omega) hhigh c hcj
        omega
      · exact hrest.apart i j (by omega) hless hhigh

theorem Laid.node {heads : List Nat}
    (hparts : Laid graph (first + 1) last heads)
    (hchildren : graph.children first = heads) (hlt : first < last) :
    Laid graph first last [first] where
  inside i hmem := by
    cases List.mem_singleton.mp hmem
    exact ⟨Nat.le_refl _, hlt⟩
  nodup := by simp
  behind i hlow hhigh c hc := by
    rw [List.mem_singleton]
    rcases Nat.eq_or_lt_of_le hlow with rfl | hless
    · rw [hchildren] at hc
      have := hparts.inside c hc
      omega
    · have := hparts.behind i hless hhigh c hc
      omega
  distinct i hlow hhigh := by
    rcases Nat.eq_or_lt_of_le hlow with rfl | hless
    · rw [hchildren]
      exact hparts.nodup
    · exact hparts.distinct i hless hhigh
  apart i j hlow hless hhigh := by
    rcases Nat.eq_or_lt_of_le hlow with rfl | hlater
    · intro c hci hcj
      rw [hchildren] at hci
      exact (hparts.behind j hless hhigh c hcj).2.2 hci
    · exact hparts.apart i j hlater hless hhigh

mutual

theorem Spans.laid : ∀ {tree : Tree} {first last : Nat},
    Spans graph first last tree →
    Laid graph first last [first]
  | .alias _, _, _, hspans => hspans.elim
  | .scalar _ _ _, first, _, ⟨hnode, hlast⟩ => by
      subst hlast
      exact (Laid.nil graph (first + 1)).node (by rw [children, hnode])
        (Nat.lt_succ_self _)
  | .sequence _ _ _, _, _, ⟨_, hnode, hitems⟩ =>
      hitems.laid.node (by rw [children, hnode]) hitems.le
  | .mapping _ _ _, _, _, ⟨_, hnode, hentries⟩ =>
      hentries.laid.node (by rw [children, hnode]) hentries.le

theorem SpansItems.laid :
    ∀ {items : List Tree} {first last : Nat} {places : List Nat},
      SpansItems graph first last places items → Laid graph first last places
  | [], first, _, _, ⟨hplaces, hlast⟩ => by
      subst hplaces hlast
      exact Laid.nil graph _
  | _ :: _, _, _, _, ⟨_, _, hplaces, hitem, hrest⟩ => by
      subst hplaces
      exact hitem.laid.append hrest.laid (Nat.le_of_lt hitem.lt) hrest.le

theorem SpansEntries.laid : ∀ {entries : List (Tree × Tree)} {first last : Nat}
    {places : List (Nat × Nat)}, SpansEntries graph first last places entries →
    Laid graph first last (places.flatMap fun entry => [entry.1, entry.2])
  | [], first, _, _, ⟨hplaces, hlast⟩ => by
      subst hplaces hlast
      exact Laid.nil graph _
  | _ :: _, _, _, _, ⟨_, _, _, hplaces, hkey, hvalue, hrest⟩ => by
      subst hplaces
      have hlater :=
        hvalue.laid.append hrest.laid (Nat.le_of_lt hvalue.lt) hrest.le
      exact hkey.laid.append hlater (Nat.le_of_lt hkey.lt)
        (Nat.le_trans (Nat.le_of_lt hvalue.lt) hrest.le)

end

end Fragments.Yaml.Graph
