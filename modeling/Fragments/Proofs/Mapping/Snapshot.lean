import Fragments.Proofs.Mapping.Batches
import Fragments.Proofs.Mapping.Convention
import Fragments.Proofs.Mapping.Listing
import Fragments.Proofs.Text.Basic

namespace Fragments

namespace History

/-- The last entry for a kind. -/
def entryOf? (history : History) (kind : String) : Option MappingEntry :=
  (history.filter (·.kind == kind)).getLast?

def pairs (history : History) : List (String × List String) :=
  history.map fun entry => (entry.kind, entry.tokens)

theorem get?_reverse_pairs (history : History) (kind : String) :
    Entries.get? history.pairs.reverse kind =
      (history.entryOf? kind).map (·.tokens) := by
  induction history using List.reverseRecOn with
  | nil => rfl
  | append_singleton early last ih =>
      have hpairs : pairs (early ++ [last]) = pairs early ++
          [(last.kind, last.tokens)] := by
        simp [pairs]
      rw [hpairs, List.reverse_concat, entryOf?, List.filter_append]
      by_cases hkind : last.kind = kind
      · simp [hkind]
      · rw [Entries.get?_cons_of_ne hkind, ih, entryOf?]
        simp [hkind]

theorem mem_of_entryOf?_eq_some {history : History} {kind : String}
    {entry : MappingEntry} (hentry : history.entryOf? kind = some entry) :
    entry ∈ history ∧ entry.kind = kind := by
  obtain ⟨hmem, hkind⟩ := List.mem_filter.mp (List.mem_of_getLast? hentry)
  exact ⟨hmem, beq_iff_eq.mp hkind⟩

theorem exists_of_kindOf?_eq_some {history : History} {token kind : String}
    (hkind : history.kindOf? token = some kind) :
    ∃ entry ∈ history, entry.hasToken token ∧ entry.kind = kind := by
  obtain ⟨entry, hlast, rfl⟩ := Option.map_eq_some_iff.mp hkind
  obtain ⟨hmem, hhas⟩ := List.mem_filter.mp (List.mem_of_getLast? hlast)
  exact ⟨entry, hmem, hhas, rfl⟩

theorem kindOf?_ne_none {history : History} {entry : MappingEntry}
    {token : String} (hmem : entry ∈ history) (hhas : entry.hasToken token) :
    history.kindOf? token ≠ none := by
  rw [kindOf?, ne_eq, Option.map_eq_none_iff, List.getLast?_eq_none_iff]
  exact List.ne_nil_of_mem (List.mem_filter.mpr ⟨hmem, hhas⟩)

end History

namespace MappingEntry

/-- An entry as loose data again: its kind in a pair with the list of its
tokens. -/
def paired (entry : MappingEntry) : EntryInput :=
  .loose (.pair (.text entry.kind) (.list none (entry.tokens.map .text)))

/-- What reading an entry again would not change. -/
structure Clean (entry : MappingEntry) : Prop where
  kind : Text.trim entry.kind = entry.kind
  tokens : ∀ token ∈ entry.tokens, Text.trim token = token ∧ token ≠ ""

theorem tokenTexts?_list_texts (label : Option Nat) (tokens : List String) :
    (Value.list label (tokens.map .text)).tokenTexts? =
      some (tokens.map .ok) := by
  simp only [Value.tokenTexts?, List.map_map]
  rfl

theorem cleanTokens_of_clean {texts : List String}
    (hclean : ∀ text ∈ texts, Text.trim text = text ∧ text ≠ "") :
    cleanTokens texts = texts := by
  have htrim : texts.map Text.trim = texts := by
    rw [List.map_congr_left fun text hmem => (hclean text hmem).1, List.map_id']
  rw [cleanTokens, htrim, List.filter_eq_self]
  intro text hmem
  simpa using (hclean text hmem).2

theorem Made.clean {entry : MappingEntry} (hmade : entry.Made) :
    entry.Clean := by
  obtain ⟨kind, tokens, hparts⟩ := hmade
  obtain ⟨hkind, htokens⟩ := ofParts_eq_ok_iff.mp hparts
  obtain ⟨text, -, hkind⟩ := readKind_eq_ok_iff.mp hkind
  obtain ⟨texts, -, htokens⟩ := readTokens_eq_ok_iff.mp htokens
  refine ⟨by rw [← hkind, Text.trim_trim], fun token hmem => ?_⟩
  rw [← htokens, cleanTokens, List.mem_filter, List.mem_map] at hmem
  obtain ⟨⟨text, -, rfl⟩, hnonempty⟩ := hmem
  exact ⟨Text.trim_trim text, by simpa using hnonempty⟩

end MappingEntry

namespace Registry

variable {registry : Registry}

def notAfter (one other : String × List String) : Bool :=
  !decide (other.1 < one.1)

theorem notAfter_iff {one other : String × List String} :
    notAfter one other = true ↔ one.1 ≤ other.1 :=
  Text.notAfter_iff

theorem mappings_eq (registry : Registry) :
    registry.mappings =
      ((registry.tokensOfKind.mergeSort notAfter).map fun (kind, tokens) =>
        (kind, registry.liveTokens kind tokens)).filter fun (_, tokens) =>
          !tokens.isEmpty :=
  rfl

theorem pairwise_lt_mergeSort {entries : List (String × List String)}
    (hdistinct : (entries.map Prod.fst).Nodup) :
    ((entries.mergeSort notAfter).map Prod.fst).Pairwise (· < ·) := by
  have hsame (one : String × List String) (_ : one ∈ entries)
      (other : String × List String) (_ : other ∈ entries) :
      notAfter one other = Text.notAfter one.1 other.1 := rfl
  rw [List.map_mergeSort hsame]
  exact Text.pairwise_lt_mergeSort hdistinct

theorem mergeSort_of_pairwise_lt {entries : List (String × List String)}
    (hlt : (entries.map Prod.fst).Pairwise (· < ·)) :
    entries.mergeSort notAfter = entries :=
  List.mergeSort_of_pairwise ((List.pairwise_map.mp hlt).imp fun hless =>
    notAfter_iff.mpr (Std.le_of_lt hless))

theorem nodup_of_pairwise_lt {kinds : List String}
    (hlt : kinds.Pairwise (· < ·)) : kinds.Nodup :=
  hlt.imp fun hless => Std.ne_of_lt hless

theorem pairwise_mappings (hindexed : registry.Indexed) :
    (registry.mappings.map Prod.fst).Pairwise (· < ·) := by
  refine (pairwise_lt_mergeSort hindexed.distinct).sublist ?_
  have hkinds : (registry.tokensOfKind.mergeSort notAfter).map Prod.fst =
      ((registry.tokensOfKind.mergeSort notAfter).map fun (kind, tokens) =>
        (kind, registry.liveTokens kind tokens)).map Prod.fst := by
    rw [List.map_map]
    rfl
  rw [hkinds, mappings_eq]
  exact List.filter_sublist.map Prod.fst

theorem tokensOfKind_addAll (entries : History) :
    (empty.addAll entries).tokensOfKind =
      Entries.ofPairs (· == ·) entries.pairs := by
  rw [Entries.ofPairs, History.pairs, List.foldl_map]
  show _ = List.foldl _ empty.tokensOfKind entries
  generalize empty = registry
  induction entries generalizing registry with
  | nil => rfl
  | cons entry rest ih => exact ih _

theorem mem_mappings_addAll_iff {history : History} {kind : String}
    {tokens : List String} :
    (kind, tokens) ∈ (empty.addAll history).mappings ↔
      tokens ≠ [] ∧ ∃ entry, history.entryOf? kind = some entry ∧
        (empty.addAll history).liveTokens kind entry.tokens = tokens := by
  simp only [mem_mappings_iff, tokensOfKind_addAll, Entries.mem_ofPairs_iff,
    History.get?_reverse_pairs, Option.map_eq_some_iff]
  constructor
  · rintro ⟨hnonempty, _, ⟨entry, hentry, rfl⟩, hlive⟩
    exact ⟨hnonempty, entry, hentry, hlive⟩
  · rintro ⟨hnonempty, entry, hentry, hlive⟩
    exact ⟨hnonempty, _, ⟨entry, hentry, rfl⟩, hlive⟩

theorem kindOf?_congr {token own : String}
    (hsame : Text.lower token = Text.lower own) :
    registry.kindOf? token = registry.kindOf? own := by
  rw [kindOf?, kindOf?, hsame]

theorem kindOf?_of_mem_mappings {kind token : String} {tokens : List String}
    (hlisted : (kind, tokens) ∈ registry.mappings) (hmem : token ∈ tokens) :
    registry.kindOf? token = some kind := by
  obtain ⟨-, all, -, rfl⟩ := mem_mappings_iff.mp hlisted
  simpa [liveTokens] using (List.mem_filter.mp hmem).2

/-- The entries that the listing consists of. -/
def listed (registry : Registry) : History :=
  registry.mappings.map fun row => ⟨row.1, row.2⟩

/-- The listing as a batch, each kind in a pair with its tokens. -/
def snapshot (registry : Registry) : Batch :=
  .entries (registry.listed.map MappingEntry.paired)

theorem pairs_listed : registry.listed.pairs = registry.mappings := by
  rw [History.pairs, listed, List.map_map]
  exact List.map_id _

theorem mem_listed_iff {entry : MappingEntry} :
    entry ∈ registry.listed ↔
      (entry.kind, entry.tokens) ∈ registry.mappings := by
  constructor
  · intro hmem
    obtain ⟨row, hrow, rfl⟩ := List.mem_map.mp hmem
    exact hrow
  · exact fun hrow => List.mem_map.mpr ⟨_, hrow, rfl⟩

theorem readEntry_paired {entry : MappingEntry} (hclean : entry.Clean) :
    readEntry entry.paired = .ok entry := by
  refine readEntry_loose_eq_ok_iff.mpr
    ⟨_, _, rfl, MappingEntry.ofParts_eq_ok_iff.mpr ⟨?_, ?_⟩⟩
  · exact MappingEntry.readKind_eq_ok_iff.mpr ⟨entry.kind, rfl, hclean.kind⟩
  · exact MappingEntry.readTokens_eq_ok_iff.mpr ⟨entry.tokens,
      MappingEntry.tokenTexts?_list_texts none entry.tokens,
      MappingEntry.cleanTokens_of_clean hclean.tokens⟩

theorem upsert_snapshot
    (hlisted : ∀ entry ∈ registry.listed, entry.Clean ∧ entry.isValid) :
    empty.upsert registry.snapshot = .ok (empty.addAll registry.listed) := by
  have hread : (registry.listed.map MappingEntry.paired).mapM readEntry =
      .ok registry.listed := by
    rw [mapM_eq_ok_iff_map_eq, List.map_map]
    exact List.map_congr_left fun entry hmem =>
      readEntry_paired (hlisted entry hmem).1
  have hcheck : checkEntries registry.listed = .ok () :=
    checkEntries_eq_ok_iff.mpr fun entry hmem => (hlisted entry hmem).2
  rw [snapshot, upsert, hread]
  simp only [bind, Except.bind, hcheck]

/-- What is listed of a clean entry is one. -/
theorem clean_of_mem_listed {history : History}
    (hclean : ∀ entry ∈ history, entry.Clean ∧ entry.isValid)
    {entry : MappingEntry} (hmem : entry ∈ (empty.addAll history).listed) :
    entry.Clean ∧ entry.isValid := by
  rw [mem_listed_iff, mem_mappings_addAll_iff] at hmem
  obtain ⟨hnonempty, made, hmade, hlive⟩ := hmem
  obtain ⟨hmem, hkind⟩ := History.mem_of_entryOf?_eq_some hmade
  obtain ⟨hclean, hvalid⟩ := hclean made hmem
  refine ⟨⟨hkind ▸ hclean.kind, fun token htoken => ?_⟩, ?_⟩
  · rw [← hlive] at htoken
    exact hclean.tokens token (List.mem_filter.mp htoken).1
  · rw [MappingEntry.isValid, Bool.and_eq_true] at hvalid ⊢
    exact ⟨hkind ▸ hvalid.1, by simpa using hnonempty⟩

theorem kindOf?_of_hasToken {entry : MappingEntry} {token : String}
    (hmem : entry ∈ registry.listed) (hhas : entry.hasToken token) :
    registry.kindOf? token = some entry.kind := by
  obtain ⟨own, hown, hsame⟩ := List.any_eq_true.mp hhas
  rw [kindOf?_congr (beq_iff_eq.mp hsame).symm]
  exact kindOf?_of_mem_mappings (mem_listed_iff.mp hmem) hown

theorem kindOf?_addAll_listed (registry : Registry) (token : String) :
    (empty.addAll registry.listed).kindOf? token = none ∨
      (empty.addAll registry.listed).kindOf? token =
        registry.kindOf? token := by
  rw [kindOf?_addAll, show empty.kindOf? token = none from rfl, Option.or_none]
  cases hlast : History.kindOf? registry.listed token with
  | none => exact .inl rfl
  | some kind =>
      obtain ⟨entry, hmem, hhas, rfl⟩ := History.exists_of_kindOf?_eq_some hlast
      exact .inr (kindOf?_of_hasToken hmem hhas).symm

theorem kindOf?_addAll_listed_of_mem {kind token : String}
    {tokens : List String} (hlisted : (kind, tokens) ∈ registry.mappings)
    (hmem : token ∈ tokens) :
    (empty.addAll registry.listed).kindOf? token = some kind := by
  have hhas : MappingEntry.hasToken ⟨kind, tokens⟩ token = true :=
    List.any_eq_true.mpr ⟨token, hmem, beq_self_eq_true _⟩
  rcases kindOf?_addAll_listed registry token with hnone | hsame
  · rw [kindOf?_addAll, Option.or_eq_none_iff] at hnone
    exact absurd hnone.1
      (History.kindOf?_ne_none (mem_listed_iff.mpr hlisted) hhas)
  · rw [hsame, kindOf?_of_mem_mappings hlisted hmem]

theorem mappings_addAll_listed (hindexed : registry.Indexed) :
    (empty.addAll registry.listed).mappings = registry.mappings := by
  have hsorted := pairwise_mappings hindexed
  have hlive : (registry.mappings.map fun (kind, tokens) =>
      (kind, (empty.addAll registry.listed).liveTokens kind tokens)) =
        registry.mappings := by
    refine (List.map_congr_left fun row hrow => ?_).trans (List.map_id' _)
    refine Prod.ext rfl (List.filter_eq_self.mpr fun token hmem => ?_)
    rw [kindOf?_addAll_listed_of_mem hrow hmem, beq_self_eq_true]
  -- the kinds are distinct and sorted, so neither adding the entries nor
  -- sorting them moves any
  rw [mappings_eq, tokensOfKind_addAll, pairs_listed,
    Entries.ofPairs_of_nodup (nodup_of_pairwise_lt hsorted),
    mergeSort_of_pairwise_lt hsorted, hlive, List.filter_eq_self]
  rintro ⟨kind, tokens⟩ hrow
  simpa using (mem_mappings_iff.mp hrow).1

/-- The listing has its kinds in strict order, each with the tokens of its last
accepted entry that still denote it, if there are any, and no token in any
letter case under two of them. It can be read again: the registry made from it
has the same listing, and a token means in it what it meant before or
nothing. -/
theorem mappings_exact_and_reusable {seed : Batch} {start : Registry}
    (hseed : empty.upsert seed = .ok start) {batches : List Batch}
    (hmade : ∀ batch ∈ seed :: batches, batch.Made) :
    let registry := start.attemptAll batches
    let history := empty.history (seed :: batches)
    (registry.mappings.map Prod.fst).Pairwise (· < ·) ∧
      (∀ kind tokens, (kind, tokens) ∈ registry.mappings ↔
        tokens ≠ [] ∧ ∃ entry, history.entryOf? kind = some entry ∧
          (entry.tokens.filter fun token =>
            registry.kindOf? token == some kind) = tokens) ∧
      (∀ kind tokens other others, (kind, tokens) ∈ registry.mappings →
        (other, others) ∈ registry.mappings → ∀ token ∈ tokens, ∀ own ∈ others,
          Text.lower token = Text.lower own → kind = other) ∧
      ∃ again, empty.upsert registry.snapshot = .ok again ∧
        again.mappings = registry.mappings ∧
          ∀ token, again.kindOf? token = none ∨
            again.kindOf? token = registry.kindOf? token := by
  intro registry history
  have hgrown : registry = empty.attemptAll (seed :: batches) :=
    history_of_seed hseed batches
  have hhistory : registry = empty.addAll history :=
    hgrown.trans (attemptAll_eq_addAll_history _ _)
  have hindexed : registry.Indexed := by
    rw [hgrown]
    exact Indexed.empty.attemptAll _
  refine ⟨pairwise_mappings hindexed, fun kind tokens => ?_, ?_, ?_⟩
  · rw [hhistory]
    exact mem_mappings_addAll_iff
  · intro kind tokens other others hkind hother token hmem own hown hsame
    refine Option.some.inj ?_
    rw [← kindOf?_of_mem_mappings hkind hmem, ← kindOf?_of_mem_mappings
      hother hown]
    exact kindOf?_congr hsame
  · have hlisted : ∀ entry ∈ registry.listed, entry.Clean ∧ entry.isValid := by
      rw [hhistory]
      exact fun entry => clean_of_mem_listed fun made hmem =>
        ⟨(made_of_mem_history hmade hmem).clean, isValid_of_mem_history hmem⟩
    exact ⟨_, upsert_snapshot hlisted, mappings_addAll_listed hindexed,
      kindOf?_addAll_listed registry⟩

/-- A kind that has lost one of its tokens to another kind in a different letter
case, and one that has lost all. -/
theorem mappings_exact_and_reusable_reassigned :
    let seed : Batch :=
      .entries [.loose (.pair (.text " Service ") (.text "service, svc"))]
    let batches : List Batch :=
      [.entries [.ready ⟨"Route", ["SVC", "rt"]⟩, .ready ⟨"Pod", ["pod"]⟩],
        .notSequence, .entries [.ready ⟨"Box", ["Pod", "POD"]⟩]]
    let registry :=
      (empty.add ⟨"Service", ["service", "svc"]⟩).attemptAll batches
    empty.upsert seed = .ok (empty.add ⟨"Service", ["service", "svc"]⟩) ∧
      ("Service", ["service"]) ∈ registry.mappings ∧
      ("Route", ["SVC", "rt"]) ∈ registry.mappings ∧
      (∀ tokens, ("Pod", tokens) ∉ registry.mappings) ∧
      ∃ again, empty.upsert registry.snapshot = .ok again ∧
        again.mappings = registry.mappings ∧
        again.kindOf? "svc" = some "Route" := by
  intro seed batches registry
  have hseed : empty.upsert seed =
      .ok (empty.add ⟨"Service", ["service", "svc"]⟩) := by
    decide +kernel
  have hmade : ∀ batch ∈ seed :: batches, batch.Made := by
    have hroute : (⟨"Route", ["SVC", "rt"]⟩ : MappingEntry).Made :=
      ⟨.text "Route", .text "SVC,rt", by decide +kernel⟩
    have hpod : (⟨"Pod", ["pod"]⟩ : MappingEntry).Made :=
      ⟨.text "Pod", .text "pod", by decide +kernel⟩
    have hbox : (⟨"Box", ["Pod", "POD"]⟩ : MappingEntry).Made :=
      ⟨.text "Box", .text "Pod,POD", by decide +kernel⟩
    simp [seed, batches, Batch.Made, hroute, hpod, hbox]
  obtain ⟨-, hexact, -, again, hagain, hsame, -⟩ :=
    mappings_exact_and_reusable hseed hmade
  have hroute : ("Route", ["SVC", "rt"]) ∈ registry.mappings :=
    (hexact _ _).mpr
      ⟨by simp, ⟨"Route", ["SVC", "rt"]⟩, by decide +kernel, by decide +kernel⟩
  refine ⟨hseed, ?_, hroute, ?_, again, hagain, hsame, ?_⟩
  · exact (hexact _ _).mpr
      ⟨by
        simp, ⟨"Service", ["service", "svc"]⟩, by
          decide +kernel, by decide +kernel⟩
  · intro tokens hmem
    obtain ⟨hnonempty, entry, hentry, hlive⟩ := (hexact _ _).mp hmem
    obtain rfl : ⟨"Pod", ["pod"]⟩ = entry := by
      have hpod : (empty.history (seed :: batches)).entryOf? "Pod" =
          some ⟨"Pod", ["pod"]⟩ := by
        decide +kernel
      exact Option.some.inj (hpod.symm.trans hentry)
    exact hnonempty (hlive.symm.trans (by decide +kernel))
  · rw [kindOf?_congr
      (show Text.lower "svc" = Text.lower "SVC" by decide +kernel)]
    exact kindOf?_of_mem_mappings (hsame ▸ hroute) (by simp)

end Registry

end Fragments
