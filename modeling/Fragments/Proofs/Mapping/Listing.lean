import Fragments.CommandLine.Program
import Fragments.Proofs.Mapping.History

namespace Fragments.Registry

variable {registry : Registry} {kind : String} {tokens : List String}

/-- The two indices of kinds tell the same: the token of a kind is the last one
of its tokens. -/
structure Indexed (registry : Registry) : Prop where
  distinct : (registry.tokensOfKind.map Prod.fst).Nodup
  last (kind : String) :
    (Entries.get? registry.tokensOfKind kind).bind List.getLast? =
      registry.tokenOf? kind

theorem Indexed.empty : Registry.empty.Indexed := ⟨List.nodup_nil, fun _ => rfl⟩

theorem Indexed.add (hindexed : registry.Indexed) {entry : MappingEntry}
    (hvalid : entry.isValid) :
    (registry.add entry).Indexed where
  distinct := Entries.nodup_assign (fun key => beq_self_eq_true key)
    hindexed.distinct
  last kind := by
    obtain ⟨token, htoken⟩ := History.exists_getLast?_tokens hvalid
    unfold tokenOf? Registry.add
    rw [Entries.get?_assign, Entries.get?_assign]
    split
    · simp [htoken]
    · exact hindexed.last kind

theorem Indexed.addAll (hindexed : registry.Indexed)
    {entries : List MappingEntry} (hvalid : ∀ entry ∈ entries, entry.isValid) :
    (registry.addAll entries).Indexed := by
  induction entries generalizing registry with
  | nil => exact hindexed
  | cons entry rest ih =>
      exact ih (hindexed.add (hvalid entry List.mem_cons_self))
        fun later hmem =>
          hvalid later (List.mem_cons_of_mem entry hmem)

theorem Indexed.attemptAll (hindexed : registry.Indexed)
    (batches : List Batch) :
    (registry.attemptAll batches).Indexed := by
  rw [attemptAll_eq_addAll_history]
  exact hindexed.addAll fun _ hmem => isValid_of_mem_history hmem

theorem mem_mappings_iff :
    (kind, tokens) ∈ registry.mappings ↔
      tokens ≠ [] ∧ ∃ all, (kind, all) ∈ registry.tokensOfKind ∧
        registry.liveTokens kind all = tokens := by
  simp [mappings, and_comm]

/-- What is listed last is the last token of all, unless that one denotes
another kind. -/
theorem getLast?_liveTokens_eq_iff {all : List String} {own : String}
    (hown : all.getLast? = some own) :
    (registry.liveTokens kind all).getLast? = some own ↔
      registry.kindOf? own = some kind := by
  constructor
  · intro hlast
    have hmem := List.mem_of_getLast? hlast
    simpa [liveTokens] using (List.mem_filter.mp hmem).2
  · intro hkind
    obtain ⟨before, rfl⟩ := List.getLast?_eq_some_iff.mp hown
    rw [liveTokens, List.filter_append]
    simp [hkind]

/-- Every listed kind has a row whose last column shows the last listed token.
The suffixes of the kind take that token exactly when their own still denotes
the kind. -/
theorem suffixed_eq_listed_iff {seed : Batch} {start : Registry}
    (hseed : Registry.empty.upsert seed = .ok start) (batches : List Batch) :
    let registry := start.attemptAll batches
    ∀ kind tokens, (kind, tokens) ∈ registry.mappings →
      ∃ own listed, registry.tokenOf? kind = some own ∧
        tokens.getLast? = some listed ∧
        [kind, ", ".intercalate tokens, listed] ∈
          (Program.mappingsTable registry.mappings).rows ∧
        ∀ name, registry.suffixed name (some kind) = name ++ "-" ++ listed ↔
          registry.kindOf? own = some kind := by
  intro registry kind tokens hmem
  have hindexed : registry.Indexed := by
    rw [show registry = Registry.empty.attemptAll (seed :: batches) from
      history_of_seed hseed batches]
    exact Indexed.empty.attemptAll _
  obtain ⟨hnonempty, all, hall, rfl⟩ := mem_mappings_iff.mp hmem
  obtain ⟨listed, hlisted⟩ := Option.ne_none_iff_exists'.mp
    (mt List.getLast?_eq_none_iff.mp hnonempty)
  have htoken := hindexed.last kind
  rw [Entries.get?_eq_some_of_mem hindexed.distinct hall, Option.bind_some]
    at htoken
  obtain ⟨own, hown⟩ : ∃ own, all.getLast? = some own := by
    obtain ⟨live, hlive⟩ := List.exists_mem_of_ne_nil _ hnonempty
    exact Option.ne_none_iff_exists'.mp (mt List.getLast?_eq_none_iff.mp
      (List.ne_nil_of_mem (List.mem_filter.mp hlive).1))
  have hsuffix := suffixed_of_tokenOf?_eq_some (htoken.symm.trans hown)
  refine ⟨own, listed, htoken.symm.trans hown, hlisted, ?_, fun name => ?_⟩
  · refine List.mem_map.mpr ⟨_, hmem, ?_⟩
    simp [hlisted]
  · rw [hsuffix, ← getLast?_liveTokens_eq_iff hown, hlisted,
      Option.some.injEq, eq_comm]
    simp

/-- The last token of a kind goes to another one in a different letter case. -/
theorem suffixed_eq_listed_iff_reassigned :
    let batches : List Batch :=
      [.entries [.ready ⟨"Service", ["service", "svc"]⟩,
        .ready ⟨"Pod", ["pd", "pod"]⟩],
        .entries [.ready ⟨"Route", ["SVC"]⟩]]
    let registry := Registry.empty.attemptAll batches
    Registry.empty.upsert .absent = .ok Registry.empty ∧
      ("Service", ["service"]) ∈ registry.mappings ∧
        ("Pod", ["pd", "pod"]) ∈ registry.mappings ∧
      registry.suffixed "web" (some "Service") ≠ "web" ++ "-" ++ "service" ∧
      registry.suffixed "web" (some "Pod") = "web" ++ "-" ++ "pod" := by
  intro batches registry
  have hseed : Registry.empty.upsert .absent = .ok Registry.empty := rfl
  have hagree := suffixed_eq_listed_iff hseed batches
  have hservice : ("Service", ["service"]) ∈ registry.mappings :=
    mem_mappings_iff.mpr
      ⟨by simp, ["service", "svc"], by decide +kernel, by decide +kernel⟩
  have hpod : ("Pod", ["pd", "pod"]) ∈ registry.mappings :=
    mem_mappings_iff.mpr
      ⟨by simp, ["pd", "pod"], by decide +kernel, by decide +kernel⟩
  refine ⟨hseed, hservice, hpod, ?_, ?_⟩
  · obtain ⟨own, listed, hown, hlisted, -, hsuffix⟩ :=
      hagree "Service" _ hservice
    obtain rfl : "service" = listed := by simpa using hlisted
    rw [ne_eq, hsuffix]
    obtain rfl : "svc" = own := by
      have htoken : registry.tokenOf? "Service" = some "svc" := by
        decide +kernel
      exact Option.some.inj (htoken.symm.trans hown)
    decide +kernel
  · obtain ⟨own, listed, hown, hlisted, -, hsuffix⟩ := hagree "Pod" _ hpod
    obtain rfl : "pod" = listed := by simpa using hlisted
    rw [hsuffix]
    obtain rfl : "pod" = own := by
      have htoken : registry.tokenOf? "Pod" = some "pod" := by decide +kernel
      exact Option.some.inj (htoken.symm.trans hown)
    decide +kernel

/-- Not every listed kind has suffixes with the token that is listed last. -/
theorem not_forall_suffixed_eq_listed :
    ¬∀ (batches : List Batch) (kind : String) (tokens : List String)
      (name : String),
      (kind, tokens) ∈ (Registry.empty.attemptAll batches).mappings →
        (Registry.empty.attemptAll batches).suffixed name (some kind) =
          name ++ "-" ++ tokens.getLast?.getD "" := by
  intro hall
  have hsuffix := hall
    [.entries [.ready ⟨"Foo", ["a", "b"]⟩], .entries [.ready ⟨"Bar", ["b"]⟩]]
      "Foo" ["a"] "n"
    (mem_mappings_iff.mpr
      ⟨by simp, ["a", "b"], by decide +kernel, by decide +kernel⟩)
  exact absurd hsuffix (by decide +kernel)

end Fragments.Registry
