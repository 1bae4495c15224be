import Fragments.Mapping.Catalog
import Fragments.Proofs.Data.Entries

namespace Fragments

/-- Whether one of the tokens of the entry is `token`, whatever the letter
case. -/
def MappingEntry.hasToken (entry : MappingEntry) (token : String) : Bool :=
  entry.tokens.any fun own => Text.lower own == Text.lower token

abbrev History := List MappingEntry

namespace History

/-- The kind of the last entry with a token. -/
def kindOf? (history : History) (token : String) : Option String :=
  (history.filter (·.hasToken token)).getLast?.map (·.kind)

/-- The last token of the last entry for a kind. -/
def tokenOf? (history : History) (kind : String) : Option String :=
  (history.filter (·.kind == kind)).getLast?.bind (·.tokens.getLast?)

end History

def Batch.readEntries : Batch → Except Problem (List MappingEntry)
  | .absent => .ok []
  | .notSequence => .error (.fault .wrongType)
  | .entries items => items.mapM Registry.readEntry

namespace Registry

/-- The registry after a batch. A rejected one leaves it as it was. -/
def attempt (registry : Registry) (batch : Batch) : Registry :=
  match registry.upsert batch with
  | .ok grown => grown
  | .error _ => registry

def attemptAll (registry : Registry) (batches : List Batch) : Registry :=
  batches.foldl attempt registry

/-- What a batch adds to the history: its entries when it is accepted, else
nothing. -/
def accepted (registry : Registry) (batch : Batch) : History :=
  match registry.upsert batch, batch.readEntries with
  | .ok _, .ok entries => entries
  | _, _ => []

/-- The entries of the accepted ones among some batches that are tried one after
the other. -/
def history (registry : Registry) : List Batch → History
  | [] => []
  | batch :: rest =>
      registry.accepted batch ++ (registry.attempt batch).history rest

end Registry

namespace History

theorem exists_getLast?_tokens {entry : MappingEntry} (hvalid : entry.isValid) :
    ∃ token, entry.tokens.getLast? = some token := by
  cases htokens : entry.tokens.getLast? with
  | none => simp_all [MappingEntry.isValid]
  | some token => exact ⟨token, rfl⟩

theorem kindOf?_append (early late : History) (token : String) :
    kindOf? (early ++ late) token =
      (kindOf? late token).or (kindOf? early token) := by
  simp only [kindOf?, List.filter_append, List.getLast?_append]
  cases (late.filter (·.hasToken token)).getLast? <;> rfl

theorem kindOf?_singleton (entry : MappingEntry) (token : String) :
    kindOf? [entry] token = if entry.hasToken token then some entry.kind
      else none := by
  by_cases hhas : entry.hasToken token <;> simp [kindOf?, hhas]

theorem kindOf?_of_forall {history : History} {token kind : String}
    (hkind : ∀ entry ∈ history, entry.hasToken token → entry.kind = kind) :
    kindOf? history token = none ∨ kindOf? history token = some kind := by
  unfold kindOf?
  cases hlast : (history.filter (·.hasToken token)).getLast? with
  | none => exact Or.inl rfl
  | some entry =>
      have hmem := List.mem_filter.mp (List.mem_of_getLast? hlast)
      exact Or.inr (congrArg some (hkind entry hmem.1 hmem.2))

theorem tokenOf?_append (early : History) {late : History}
    (hvalid : ∀ entry ∈ late, entry.isValid) (kind : String) :
    tokenOf? (early ++ late) kind =
      (tokenOf? late kind).or (tokenOf? early kind) := by
  simp only [tokenOf?, List.filter_append, List.getLast?_append]
  cases hlast : (late.filter (·.kind == kind)).getLast? with
  | none => rfl
  | some entry =>
      have hmem := (List.mem_filter.mp (List.mem_of_getLast? hlast)).1
      obtain ⟨token, htoken⟩ := exists_getLast?_tokens (hvalid entry hmem)
      simp [htoken]

theorem exists_tokenOf?_of_mem {history : History}
    (hvalid : ∀ entry ∈ history, entry.isValid) {entry : MappingEntry}
    (hmem : entry ∈ history) :
    ∃ token, tokenOf? history entry.kind = some token := by
  unfold tokenOf?
  cases hlast : (history.filter (·.kind == entry.kind)).getLast? with
  | none =>
      rw [List.getLast?_eq_none_iff, List.filter_eq_nil_iff] at hlast
      exact absurd (beq_self_eq_true entry.kind) (hlast entry hmem)
  | some last =>
      exact exists_getLast?_tokens
        (hvalid last (List.mem_filter.mp (List.mem_of_getLast? hlast)).1)

theorem tokenOf?_of_not_mem {history : History} {kind : String}
    (hkind : ∀ entry ∈ history, entry.kind ≠ kind) :
    tokenOf? history kind = none := by
  have hnone : history.filter (·.kind == kind) = [] := by
    simpa [List.filter_eq_nil_iff] using hkind
  simp [tokenOf?, hnone]

end History

namespace Registry

private theorem get?_foldl_assign (kind key : String) (tokens : List String)
    (index : List (String × String)) :
    Entries.get?
        (tokens.foldl
          (fun index token =>
            Entries.assign (· == ·) (Text.lower token) kind index) index) key =
      if tokens.any (Text.lower · == key) then some kind
        else Entries.get? index key := by
  induction tokens generalizing index with
  | nil => rfl
  | cons own rest ih =>
      rw [List.foldl_cons, ih, Entries.get?_assign, List.any_cons]
      by_cases hown : Text.lower own = key <;>
        cases rest.any (Text.lower · == key) <;> simp [hown]

theorem kindOf?_add (registry : Registry) (entry : MappingEntry)
    (token : String) :
    (registry.add entry).kindOf? token =
      (History.kindOf? [entry] token).or (registry.kindOf? token) := by
  rw [History.kindOf?_singleton, kindOf?, add, get?_foldl_assign]
  unfold MappingEntry.hasToken
  split <;> rfl

theorem tokenOf?_add (registry : Registry) {entry : MappingEntry}
    (hvalid : entry.isValid) (kind : String) :
    (registry.add entry).tokenOf? kind =
      (History.tokenOf? [entry] kind).or (registry.tokenOf? kind) := by
  obtain ⟨token, htoken⟩ := History.exists_getLast?_tokens hvalid
  by_cases hkind : entry.kind = kind
  · simp [tokenOf?, add, History.tokenOf?, hkind, htoken]
  · simp [tokenOf?, add, History.tokenOf?, Entries.get?_assign, hkind]

theorem kindOf?_addAll (registry : Registry) (entries : History)
    (token : String) :
    (registry.addAll entries).kindOf? token =
      (History.kindOf? entries token).or (registry.kindOf? token) := by
  induction entries generalizing registry with
  | nil => rfl
  | cons entry rest ih =>
      have hsplit := History.kindOf?_append [entry] rest token
      rw [List.singleton_append] at hsplit
      rw [addAll, List.foldl_cons, ← addAll, ih, kindOf?_add, hsplit,
        Option.or_assoc]

theorem tokenOf?_addAll (registry : Registry) {entries : History}
    (hvalid : ∀ entry ∈ entries, entry.isValid) (kind : String) :
    (registry.addAll entries).tokenOf? kind =
      (History.tokenOf? entries kind).or (registry.tokenOf? kind) := by
  induction entries generalizing registry with
  | nil => rfl
  | cons entry rest ih =>
      have hrest : ∀ later ∈ rest, later.isValid := fun later hmem =>
        hvalid later (List.mem_cons_of_mem entry hmem)
      have hsplit := History.tokenOf?_append [entry] hrest kind
      rw [List.singleton_append] at hsplit
      rw [addAll, List.foldl_cons, ← addAll, ih (registry.add entry) hrest,
        tokenOf?_add registry (hvalid entry List.mem_cons_self), hsplit,
        Option.or_assoc]

theorem checkEntries_eq_ok_iff {entries : List MappingEntry} :
    checkEntries entries = .ok () ↔ ∀ entry ∈ entries, entry.isValid := by
  unfold checkEntries
  split
  · next entry hfind =>
      have hinvalid := List.find?_some hfind
      refine iff_of_false nofun fun hall => ?_
      rw [hall entry (List.mem_of_find?_eq_some hfind)] at hinvalid
      cases hinvalid
  · next hnone =>
      refine iff_of_true rfl fun entry hmem => ?_
      simpa using List.find?_eq_none.mp hnone entry hmem

theorem upsert_eq_ok {registry grown : Registry} {batch : Batch}
    (hok : registry.upsert batch = .ok grown) :
    ∃ entries, batch.readEntries = .ok entries ∧
      (∀ entry ∈ entries, entry.isValid) ∧ grown = registry.addAll entries := by
  cases batch with
  | absent =>
      cases hok
      exact ⟨[], rfl, by simp, rfl⟩
  | notSequence => cases hok
  | entries items =>
      simp only [upsert, bind, Except.bind] at hok
      cases hread : items.mapM readEntry with
      | error problem => simp [hread] at hok
      | ok entries =>
          simp only [hread] at hok
          cases hcheck : checkEntries entries with
          | error problem => simp [hcheck] at hok
          | ok _ =>
              simp only [hcheck, Except.ok.injEq] at hok
              exact ⟨entries, hread, checkEntries_eq_ok_iff.mp hcheck, hok.symm⟩

theorem attempt_eq_addAll_accepted (registry : Registry) (batch : Batch) :
    registry.attempt batch = registry.addAll (registry.accepted batch) := by
  unfold attempt accepted
  cases hok : registry.upsert batch with
  | error problem => rfl
  | ok grown =>
      obtain ⟨entries, hread, -, hgrown⟩ := upsert_eq_ok hok
      simp only [hread]
      exact hgrown

theorem isValid_of_mem_accepted {registry : Registry} {batch : Batch}
    {entry : MappingEntry} (hmem : entry ∈ registry.accepted batch) :
    entry.isValid := by
  unfold accepted at hmem
  cases hok : registry.upsert batch with
  | error problem => simp [hok] at hmem
  | ok grown =>
      obtain ⟨entries, hread, hvalid, -⟩ := upsert_eq_ok hok
      simp only [hok, hread] at hmem
      exact hvalid entry hmem

theorem isValid_of_mem_history {registry : Registry} {batches : List Batch}
    {entry : MappingEntry} (hmem : entry ∈ registry.history batches) :
    entry.isValid := by
  induction batches generalizing registry with
  | nil => cases hmem
  | cons batch rest ih =>
      rcases List.mem_append.mp hmem with hfirst | hrest
      · exact isValid_of_mem_accepted hfirst
      · exact ih hrest

/-- A run of batches, rejected ones among them, adds exactly its history. -/
theorem attemptAll_eq_addAll_history (registry : Registry)
    (batches : List Batch) :
    registry.attemptAll batches =
      registry.addAll (registry.history batches) := by
  induction batches generalizing registry with
  | nil => rfl
  | cons batch rest ih =>
      rw [attemptAll, List.foldl_cons, ← attemptAll, ih, history,
        attempt_eq_addAll_accepted]
      simp only [addAll, List.foldl_append]

theorem kindOf?_attemptAll (registry : Registry) (batches : List Batch)
    (token : String) :
    (registry.attemptAll batches).kindOf? token =
      (History.kindOf? (registry.history batches) token).or
        (registry.kindOf? token) := by
  rw [attemptAll_eq_addAll_history, kindOf?_addAll]

theorem tokenOf?_attemptAll (registry : Registry) (batches : List Batch)
    (kind : String) :
    (registry.attemptAll batches).tokenOf? kind =
      (History.tokenOf? (registry.history batches) kind).or
        (registry.tokenOf? kind) := by
  rw [attemptAll_eq_addAll_history,
    tokenOf?_addAll registry fun entry hmem => isValid_of_mem_history hmem]

theorem attempt_of_upsert_eq_ok {registry grown : Registry} {batch : Batch}
    (hok : registry.upsert batch = .ok grown) :
    registry.attempt batch = grown := by
  simp [attempt, hok]

theorem suffixed_of_tokenOf?_eq_some {registry : Registry} {kind token : String}
    (htoken : registry.tokenOf? kind = some token) (name : String) :
    registry.suffixed name (some kind) = name ++ "-" ++ token := by
  simp [suffixed, htoken]

theorem suffixed_of_tokenOf?_eq_none {registry : Registry} {kind : String}
    (htoken : registry.tokenOf? kind = none) (name : String) :
    registry.suffixed name (some kind) = name ++ "-cr" := by
  simp [suffixed, htoken, fallbackToken, String.append_assoc]

theorem history_of_seed {seed : Batch} {start : Registry}
    (hseed : empty.upsert seed = .ok start) (batches : List Batch) :
    start.attemptAll batches = empty.attemptAll (seed :: batches) := by
  rw [attemptAll, attemptAll, List.foldl_cons, attempt_of_upsert_eq_ok hseed]

/-- An empty or seeded registry answers after any run of batches as the accepted
entries say: for a token the kind of the last entry that has it, for a kind the
last token of its last entry. -/
theorem lookups_eq_history {seed : Batch} {start : Registry}
    (hseed : empty.upsert seed = .ok start) (batches : List Batch) :
    let registry := start.attemptAll batches
    let history := empty.history (seed :: batches)
    (∀ token, registry.kindOf? token = history.kindOf? token) ∧
      (∀ kind, registry.tokenOf? kind = history.tokenOf? kind) ∧
      (∀ name kind, (∃ entry ∈ history, entry.kind = kind) →
        ∃ token, history.tokenOf? kind = some token ∧
          registry.suffixed name (some kind) = name ++ "-" ++ token) ∧
      (∀ name kind, (∀ entry ∈ history, entry.kind ≠ kind) →
        registry.suffixed name (some kind) = name ++ "-cr") ∧
      (∀ token kind later, registry.kindOf? token = some kind →
        (∀ entry ∈ registry.history later, entry.hasToken token →
          entry.kind = kind) →
        (registry.attemptAll later).kindOf? token = some kind) := by
  intro registry history
  have hkinds : ∀ token, registry.kindOf? token = history.kindOf? token := by
    intro token
    rw [show registry = empty.attemptAll (seed :: batches)
      from history_of_seed hseed batches, kindOf?_attemptAll]
    exact Option.or_none
  have htokens : ∀ kind, registry.tokenOf? kind = history.tokenOf? kind := by
    intro kind
    rw [show registry = empty.attemptAll (seed :: batches)
      from history_of_seed hseed batches, tokenOf?_attemptAll]
    exact Option.or_none
  refine ⟨hkinds, htokens, ?_, ?_, ?_⟩
  · rintro name kind ⟨entry, hmem, rfl⟩
    obtain ⟨token, htoken⟩ := History.exists_tokenOf?_of_mem
      (fun entry hmem => isValid_of_mem_history hmem) hmem
    exact ⟨token, htoken,
      suffixed_of_tokenOf?_eq_some ((htokens entry.kind).trans htoken) name⟩
  · intro name kind hnone
    exact suffixed_of_tokenOf?_eq_none
      ((htokens kind).trans (History.tokenOf?_of_not_mem hnone)) name
  · intro token kind later hkind hlater
    rw [kindOf?_attemptAll, hkind]
    rcases History.kindOf?_of_forall hlater with hnone | hsome
    · rw [hnone]; rfl
    · rw [hsome]; rfl

/-- A token in another letter case moves to another kind, a batch with a blank
kind is rejected, and the first kind keeps its own token for suffixes. -/
theorem lookups_eq_history_reassigned :
    let seed : Batch := .entries [.ready ⟨"Service", ["service", "svc"]⟩]
    let batches : List Batch :=
      [.entries [.ready ⟨"Route", ["SVC"]⟩],
        .entries [.ready ⟨"Pod", ["pd"]⟩, .ready ⟨"", ["x"]⟩]]
    let registry :=
      (empty.addAll [⟨"Service", ["service", "svc"]⟩]).attemptAll batches
    empty.upsert seed = .ok (empty.addAll [⟨"Service", ["service", "svc"]⟩]) ∧
      registry.kindOf? "Svc" = some "Route" ∧ registry.kindOf? "pd" = none ∧
      registry.tokenOf? "Service" = some "svc" := by
  intro seed batches registry
  have hseed : empty.upsert seed =
      .ok (empty.addAll [⟨"Service", ["service", "svc"]⟩]) := rfl
  have hlookups := lookups_eq_history hseed batches
  refine ⟨hseed, ?_, ?_, ?_⟩
  · exact (hlookups.1 "Svc").trans (by decide +kernel)
  · exact (hlookups.1 "pd").trans (by decide +kernel)
  · exact (hlookups.2.1 "Service").trans (by decide +kernel)

end Registry

end Fragments
