import Fragments.Proofs.Mapping.Snapshot
import Fragments.Proofs.Text.LowerCase

namespace Fragments.Registry

variable {registry : Registry}

/-- The tokens of an index are distinct, and each is its own lower case. -/
structure Settled (index : List (String × String)) : Prop where
  distinct : (index.map Prod.fst).Nodup
  lower : ∀ token ∈ index.map Prod.fst, Text.lower token = token

theorem Settled.nil : Settled [] := ⟨List.nodup_nil, nofun⟩

theorem Settled.assign {index : List (String × String)}
    (hsettled : Settled index) (token kind : String) :
    Settled (Entries.assign (· == ·) (Text.lower token) kind index) where
  distinct := Entries.nodup_assign (fun key => beq_self_eq_true key)
    hsettled.distinct
  lower := by
    intro key hkey
    rcases Entries.mem_map_fst_assign hkey with hheld | rfl
    · exact hsettled.lower key hheld
    · exact Text.lower_lower token

theorem Settled.add (hsettled : Settled registry.kindOfToken)
    (entry : MappingEntry) :
    Settled (registry.add entry).kindOfToken := by
  simp only [Registry.add]
  generalize registry.kindOfToken = index at hsettled
  induction entry.tokens generalizing index with
  | nil => exact hsettled
  | cons token rest ih => exact ih _ (hsettled.assign token entry.kind)

theorem Settled.addAll (hsettled : Settled registry.kindOfToken)
    (entries : History) :
    Settled (registry.addAll entries).kindOfToken := by
  induction entries generalizing registry with
  | nil => exact hsettled
  | cons entry rest ih => exact ih (hsettled.add entry)

theorem Settled.attemptAll (hsettled : Settled registry.kindOfToken)
    (batches : List Batch) :
    Settled (registry.attemptAll batches).kindOfToken := by
  rw [attemptAll_eq_addAll_history]
  exact hsettled.addAll _

theorem knownTokens_perm (registry : Registry) :
    registry.knownTokens.Perm (registry.kindOfToken.map Prod.fst) :=
  List.mergeSort_perm _ _

theorem length_knownTokens (registry : Registry) :
    registry.knownTokens.length = registry.size := by
  rw [(knownTokens_perm registry).length_eq, List.length_map, size]

theorem holds_iff {token : String} :
    registry.holds token = true ↔ ∃ kind, registry.kindOf? token = some kind :=
  Option.isSome_iff_exists

theorem lower_mem_knownTokens_iff {token : String} :
    Text.lower token ∈ registry.knownTokens ↔
      ∃ kind, registry.kindOf? token = some kind := by
  rw [(knownTokens_perm registry).mem_iff,
    kindOf?, ← Option.ne_none_iff_exists', ne_eq, Entries.get?_eq_none_iff,
    Classical.not_not]

theorem lower_of_mem_knownTokens (hsettled : Settled registry.kindOfToken)
    {token : String} (hmem : token ∈ registry.knownTokens) :
    Text.lower token = token :=
  hsettled.lower token ((knownTokens_perm registry).mem_iff.mp hmem)

theorem size_le_add (registry : Registry) (entry : MappingEntry) :
    registry.size ≤ (registry.add entry).size := by
  simp only [size, add]
  generalize registry.kindOfToken = index
  induction entry.tokens generalizing index with
  | nil => exact Nat.le_refl _
  | cons token rest ih =>
      exact (Entries.length_le_assign _ _ _ index).trans (ih _)

theorem size_le_addAll (registry : Registry) (entries : History) :
    registry.size ≤ (registry.addAll entries).size := by
  induction entries generalizing registry with
  | nil => exact Nat.le_refl _
  | cons entry rest ih => exact (size_le_add registry entry).trans (ih _)

theorem size_le_attemptAll (registry : Registry) (batches : List Batch) :
    registry.size ≤ (registry.attemptAll batches).size := by
  rw [attemptAll_eq_addAll_history]
  exact size_le_addAll registry _

/-- The entry that gave a token its kind, or a later one for that kind, gave the
kind a token. -/
theorem exists_tokenOf?_of_kindOf? {batches : List Batch} {token kind : String}
    (hkind : (empty.attemptAll batches).kindOf? token = some kind) :
    ∃ own, (empty.attemptAll batches).tokenOf? kind = some own := by
  rw [kindOf?_attemptAll, show empty.kindOf? token = none from rfl,
    Option.or_none] at hkind
  obtain ⟨entry, hmem, -, rfl⟩ := History.exists_of_kindOf?_eq_some hkind
  obtain ⟨own, hown⟩ := History.exists_tokenOf?_of_mem
    (fun entry hmem => isValid_of_mem_history hmem) hmem
  exact ⟨own, by rw [tokenOf?_attemptAll, hown, Option.some_or]⟩

/-- A registry that was made empty or from a seed, after any batches, accepted
and rejected ones: the known tokens are in strict order and as many as the size
says; a token is held exactly if it denotes a kind, and exactly if its lower
case is known; a known token denotes a kind that has a token for its suffixes;
what is listed is held. Further batches never make the registry smaller. -/
theorem readers_agree {seed : Batch} {start : Registry}
    (hseed : empty.upsert seed = .ok start) (batches : List Batch) :
    let registry := start.attemptAll batches
    registry.knownTokens.Pairwise (· < ·) ∧
      registry.knownTokens.length = registry.size ∧
      (∀ token, (registry.holds token = true ↔
        ∃ kind, registry.kindOf? token = some kind) ∧
        (Text.lower token ∈ registry.knownTokens ↔
          ∃ kind, registry.kindOf? token = some kind)) ∧
      (∀ token ∈ registry.knownTokens, ∃ kind own,
        registry.kindOf? token = some kind ∧
        registry.tokenOf? kind = some own) ∧
      (∀ kind tokens, (kind, tokens) ∈ registry.mappings →
        ∀ token ∈ tokens, registry.holds token = true) ∧
      ∀ more, registry.size ≤ (registry.attemptAll more).size := by
  intro registry
  have hgrown : registry = empty.attemptAll (seed :: batches) :=
    history_of_seed hseed batches
  have hsettled : Settled registry.kindOfToken :=
    hgrown ▸ Settled.nil.attemptAll _
  refine ⟨Text.pairwise_lt_mergeSort hsettled.distinct,
    length_knownTokens registry, fun token =>
      ⟨holds_iff, lower_mem_knownTokens_iff⟩, fun token hmem => ?_,
    fun kind tokens hlisted token hmem => ?_, size_le_attemptAll registry⟩
  · have hlower : Text.lower token ∈ registry.knownTokens := by
      rwa [lower_of_mem_knownTokens hsettled hmem]
    obtain ⟨kind, hkind⟩ := lower_mem_knownTokens_iff.mp hlower
    rw [hgrown] at hkind ⊢
    obtain ⟨own, hown⟩ := exists_tokenOf?_of_kindOf? hkind
    exact ⟨kind, own, hkind, hown⟩
  · exact holds_iff.mpr ⟨kind, kindOf?_of_mem_mappings hlisted hmem⟩

/-- Tokens whose lower case is not found letter by letter: a capital sigma at
the end of a word, a dotted capital I, a kelvin sign. A rejected batch stands
between the accepted ones. -/
theorem readers_agree_beyond_ascii :
    let seed : Batch := .entries [.ready ⟨"Road", ["ΟΔΟΣ", "road"]⟩]
    let batches : List Batch :=
      [.entries [.ready ⟨"City", ["İzmir"]⟩],
        .entries [.ready ⟨"Lost", ["x"]⟩, .ready ⟨"", ["y"]⟩],
        .entries [.ready ⟨"Scale", ["\u212A", "ROAD"]⟩]]
    let registry := (empty.add ⟨"Road", ["ΟΔΟΣ", "road"]⟩).attemptAll batches
    empty.upsert seed = .ok (empty.add ⟨"Road", ["ΟΔΟΣ", "road"]⟩) ∧
      registry.knownTokens.length = 4 ∧
        Text.lower "ΟΔΟΣ" ∈ registry.knownTokens ∧
      "οδοσ" ∉ registry.knownTokens ∧ registry.holds "İZMIR" = true ∧
      registry.holds "x" = false ∧
        registry.size ≤ (registry.attemptAll [.notSequence]).size := by
  intro seed batches registry
  have hseed : empty.upsert seed = .ok (empty.add ⟨"Road", ["ΟΔΟΣ", "road"]⟩) :=
    rfl
  obtain ⟨-, hlength, hheld, hnamed, -, hgrows⟩ := readers_agree hseed batches
  refine ⟨hseed, ?_, ?_, ?_, ?_, ?_, hgrows _⟩
  · rw [hlength]
    decide +kernel
  · exact (hheld "ΟΔΟΣ").2.mpr ⟨"Road", by decide +kernel⟩
  · intro hmem
    obtain ⟨kind, own, hkind, -⟩ := hnamed "οδοσ" hmem
    have hnone : registry.kindOf? "οδοσ" = none := by decide +kernel
    rw [hnone] at hkind
    cases hkind
  · exact (hheld "İZMIR").1.mpr ⟨"City", by decide +kernel⟩
  · rw [← Bool.not_eq_true, (hheld "x").1, ← Option.ne_none_iff_exists',
      Classical.not_not]
    decide +kernel

end Fragments.Registry
