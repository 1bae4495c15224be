import Fragments.Enrichment
import Fragments.Proofs.Data.Outcome
import Fragments.Proofs.FileName.Parsing
import Fragments.Proofs.Mapping.History

namespace Fragments

/-- An entry as it is made from values for its two fields. -/
def MappingEntry.Made (entry : MappingEntry) : Prop :=
  ∃ kind tokens, MappingEntry.ofParts kind tokens = .ok entry

/-- Entries that are handed over ready have been made from values before. -/
def Batch.Made : Batch → Prop
  | .entries items => ∀ entry, EntryInput.ready entry ∈ items → entry.Made
  | _ => True

namespace MappingEntry

theorem ne_empty_of_mem_cleanTokens {texts : List String} {token : String}
    (hmem : token ∈ cleanTokens texts) : token ≠ "" := by
  rintro rfl
  cases (List.mem_filter.mp hmem).2

theorem ne_empty_of_mem_readTokens {value : Value} {tokens : List String}
    {token : String} (hread : readTokens value = .ok tokens)
    (hmem : token ∈ tokens) : token ≠ "" := by
  unfold readTokens at hread
  split at hread
  · cases hread
    cases hmem
  · cases hread
    exact ne_empty_of_mem_cleanTokens hmem
  · split at hread
    · cases hread
      exact ne_empty_of_mem_cleanTokens hmem
    · cases hread
  · split at hread
    · cases hread
      exact ne_empty_of_mem_cleanTokens hmem
    · cases hread
  · cases hread

theorem Made.ne_empty {entry : MappingEntry} (hmade : entry.Made)
    {token : String} (hmem : token ∈ entry.tokens) : token ≠ "" := by
  obtain ⟨kind, tokens, hmade⟩ := hmade
  unfold ofParts at hmade
  split at hmade
  · next htokens =>
      cases hmade
      exact ne_empty_of_mem_readTokens htokens hmem
  all_goals cases hmade

end MappingEntry

namespace Registry

theorem made_of_readEntry {input : EntryInput} {entry : MappingEntry}
    (hread : readEntry input = .ok entry)
    (hready : ∀ ready, input = .ready ready → ready.Made) :
    entry.Made := by
  unfold readEntry at hread
  split at hread
  · cases hread
    exact hready _ rfl
  · next value =>
      have hmalformed : malformed value ≠ .ok entry := by
        intro hok
        obtain ⟨shown, -, hfailed⟩ := bind_eq_ok_iff.mp hok
        cases hfailed
      dsimp only at hread
      split at hread
      · next found hfound =>
          cases hread
          split at hfound
          · exact ⟨_, _, hfound⟩
          · exact ⟨_, _, hfound⟩
          · exact ⟨_, _, hfound⟩
          · exact ⟨_, _, hfound⟩
          · cases hfound
      · exact absurd hread hmalformed

theorem made_of_mem_accepted {registry : Registry} {batch : Batch}
    (hmade : batch.Made) {entry : MappingEntry}
    (hmem : entry ∈ registry.accepted batch) : entry.Made := by
  unfold accepted at hmem
  split at hmem
  · next entries _ hread =>
      cases batch with
      | absent =>
          cases hread
          cases hmem
      | notSequence => cases hread
      | entries items =>
          obtain ⟨input, hinput, hentry⟩ := exists_of_mem_mapM hread hmem
          refine made_of_readEntry hentry fun ready heq => hmade ready ?_
          rwa [← heq]
  · cases hmem

theorem made_of_mem_history {registry : Registry} {batches : List Batch}
    (hmade : ∀ batch ∈ batches, batch.Made) {entry : MappingEntry}
    (hmem : entry ∈ registry.history batches) : entry.Made := by
  induction batches generalizing registry with
  | nil => cases hmem
  | cons batch rest ih =>
      rcases List.mem_append.mp hmem with hfirst | hrest
      · exact made_of_mem_accepted (hmade batch List.mem_cons_self) hfirst
      · exact ih (fun later hlater =>
          hmade later (List.mem_cons_of_mem batch hlater)) hrest

theorem ne_empty_of_tokenOf?_attemptAll {batches : List Batch}
    (hmade : ∀ batch ∈ batches, batch.Made) {kind token : String}
    (htoken : (Registry.empty.attemptAll batches).tokenOf? kind = some token) :
    token ≠ "" := by
  rw [tokenOf?_attemptAll, show Registry.empty.tokenOf? kind = none from rfl,
    Option.or_none] at htoken
  obtain ⟨entry, hlast, htoken⟩ := Option.bind_eq_some_iff.mp htoken
  have hentry := (List.mem_filter.mp (List.mem_of_getLast? hlast)).1
  exact (made_of_mem_history hmade hentry).ne_empty
    (List.mem_of_getLast? htoken)

end Registry

namespace FileName

theorem parse?_written {name token extension : String} (htoken : token ≠ "")
    (hdash : '-' ∉ token.toList)
    (hslash : ∀ text ∈ [name, token], '/' ∉ text.toList)
    (hline : '\n' ∉ name.toList)
    (hextension : extension.toLower ∈ ["yaml", "yml", "json"]) :
    ∃ file, parse? (name ++ "-" ++ token ++ "." ++ extension) = some file ∧
      file.name = name ∧ file.typeToken = some token := by
  have hplain : '/' ∉ (name ++ "-" ++ token).toList := by
    simp [hslash name, hslash token]
  exact ⟨_, parse?_eq_of_splitStem hplain hextension
    (splitStem_typed name htoken hdash) hline, by simp, by simp⟩

end FileName

namespace Enrichment

theorem enrich_empty {file : FileName} {token kind : String}
    {registry : Registry} {versioning : Versioning}
    (htoken : file.typeToken = some token)
    (hkind : registry.kindOf? token = some kind)
    (hname : Text.isBlankText file.name = false)
    (hversion : versioning.forKind kind ≠ .null) (appName : String) :
    enrich Fragment.empty file appName versioning registry =
      (⟨none, [(.text "kind", .text kind),
        (.text "apiVersion", versioning.forKind kind),
        (.text "metadata", .mapping none [(.text "name", .text file.name)])]⟩,
        none) := by
  set known := context file appName versioning registry with hknown
  have hfound : kindOfFileName known = .ok (some kind) := by
    simp [hknown, kindOfFileName, context, htoken, hkind]
  have hsettled : settleName known (some kind) = known := by
    simp [hknown, settleName, context, htoken]
  have hkinded : enrichKind ⟨Fragment.empty, known⟩ =
      (⟨⟨none, [(.text "kind", .text kind)]⟩, known⟩, none) := by
    simp only [enrichKind, hfound, hsettled]
    rfl
  have hversioned :
      enrichApiVersion ⟨⟨none, [(.text "kind", .text kind)]⟩, known⟩ =
      ⟨⟨none, [(.text "kind", .text kind),
        (.text "apiVersion", versioning.forKind kind)]⟩,
        known⟩ := by
    unfold enrichApiVersion
    split
    · next text _ htext =>
        obtain rfl : kind = text := by
          injection htext with hvalue
          injection hvalue with hscalar
          injection hscalar
        split
        · next hnull => exact absurd hnull hversion
        · rfl
    · next hother => exact absurd rfl (hother kind rfl)
  have hresource : resourceName known = file.name := by
    simp [hknown, resourceName, context, hname]
  have hnamed : enrichName
      ⟨⟨none, [(.text "kind", .text kind),
        (.text "apiVersion", versioning.forKind kind)]⟩,
        known⟩ =
      (⟨⟨none, [(.text "kind", .text kind),
        (.text "apiVersion", versioning.forKind kind),
        (.text "metadata", .mapping none [(.text "name", .text file.name)])]⟩,
        known⟩, none) := by
    rw [← hresource]
    rfl
  simp only [enrich, Enricher.chain, run, apply, ← hknown, hkinded,
    hversioned, hnamed]

end Enrichment

namespace Registry

/-- A file that is called by a suffixed name and an extension is one of the kind
whose suffix was taken: what the convention writes into a file name, enrichment
gets out of it again. -/
theorem enrich_suffixed {seed : Batch} {start : Registry}
    (hseed : empty.upsert seed = .ok start) {batches : List Batch}
    (hmade : ∀ batch ∈ seed :: batches, batch.Made) {kind token : String}
    (htoken : (start.attemptAll batches).tokenOf? kind = some token)
    (hkind : (start.attemptAll batches).kindOf? token = some kind)
    (hdash : '-' ∉ token.toList) (hslash : '/' ∉ token.toList) {name : String}
    (hname : Text.isBlankText name = false) (hplain : '/' ∉ name.toList)
    (hline : '\n' ∉ name.toList) {extension : String}
    (hextension : extension.toLower ∈ ["yaml", "yml", "json"])
    {versioning : Versioning} (hversion : versioning.forKind kind ≠ .null)
    (appName : String) :
    ∃ file,
      FileName.parse?
          ((start.attemptAll batches).suffixed name (some kind) ++ "." ++
            extension) =
        some file ∧
        Enrichment.enrich Fragment.empty file appName versioning
          (start.attemptAll batches) =
          (⟨none, [(.text "kind", .text kind),
            (.text "apiVersion", versioning.forKind kind),
            (.text "metadata", .mapping none [(.text "name", .text name)])]⟩,
            none) := by
  have hnonempty : token ≠ "" := by
    rw [history_of_seed hseed] at htoken
    exact ne_empty_of_tokenOf?_attemptAll hmade htoken
  have hslashes : ∀ text ∈ [name, token], '/' ∉ text.toList := by
    simp [hplain, hslash]
  obtain ⟨file, hparsed, hread, htype⟩ :=
    FileName.parse?_written hnonempty hdash hslashes hline hextension
  refine ⟨file, ?_, ?_⟩
  · rw [suffixed_of_tokenOf?_eq_some htoken]
    exact hparsed
  · rw [Enrichment.enrich_empty htype hkind (by rw [hread]; exact hname)
      hversion, hread]

/-- A name with dashes, dots and blanks, an extension in mixed case, and a token
that was taken away from the kind and given back to it in another letter
case. -/
theorem enrich_suffixed_retaken :
    let seed : Batch := .entries [.ready ⟨"Service", ["service", "svc"]⟩]
    let batches : List Batch :=
      [.entries [.loose (.pair (.text "Route") (.text "rt, svc"))],
        .notSequence, .entries
          [.loose
            (.mapping none
              [(.text "tokens", .list none [.text "x", .text " SVC "]),
                (.text "kind", .text "Service")])]]
    let start := empty.addAll [⟨"Service", ["service", "svc"]⟩]
    let registry := start.attemptAll batches
    empty.upsert seed = .ok start ∧
      ∃ file, FileName.parse?
        (registry.suffixed "my-app.v1 -beta.yaml" (some "Service") ++ ".yAmL") =
          some file ∧
        Enrichment.enrich Fragment.empty file "app" .standard registry =
          (⟨none, [(.text "kind", .text "Service"),
            (.text "apiVersion", .text "v1"),
            (.text "metadata",
              .mapping none [(.text "name", .text "my-app.v1 -beta.yaml")])]⟩,
            none) := by
  intro seed batches start registry
  have hseed : empty.upsert seed = .ok start := rfl
  have hmade : ∀ batch ∈ seed :: batches, batch.Made := by
    have hservice : (⟨"Service", ["service", "svc"]⟩ : MappingEntry).Made :=
      ⟨.text "Service", .text "service,svc", by decide +kernel⟩
    simp [seed, batches, Batch.Made, hservice]
  have htoken : registry.tokenOf? "Service" = some "SVC" := by decide +kernel
  have hkind : registry.kindOf? "SVC" = some "Service" := by decide +kernel
  have hname : Text.isBlankText "my-app.v1 -beta.yaml" = false := by
    decide +kernel
  have hextension : "yAmL".toLower ∈ ["yaml", "yml", "json"] := by
    decide +kernel
  have hversion : Versioning.standard.forKind "Service" ≠ .null := by
    rw [show Versioning.standard.forKind "Service" = .text "v1" from rfl]
    rintro ⟨⟩
  exact ⟨hseed, enrich_suffixed hseed hmade htoken hkind (by decide)
    (by decide) hname (by decide) (by decide) hextension hversion "app"⟩

end Registry

end Fragments
