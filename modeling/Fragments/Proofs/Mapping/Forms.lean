import Fragments.Proofs.FileName.Parsing
import Fragments.Proofs.Mapping.Snapshot

namespace Fragments

theorem Text.split_intercalate {texts : List String} (hne : texts ≠ [])
    (hcommas : ∀ text ∈ texts, ',' ∉ text.toList) :
    Text.split ',' (",".intercalate texts) = texts := by
  induction texts with
  | nil => exact absurd rfl hne
  | cons text rest ih =>
      obtain ⟨htext, hrest⟩ := List.forall_mem_cons.mp hcommas
      cases rest with
      | nil => rw [String.intercalate_singleton, Text.split_of_not_mem htext]
      | cons next more =>
          rw [String.intercalate_cons_cons, Text.split_append rfl,
            Text.split_of_not_mem htext, ih (List.cons_ne_nil next more) hrest]
          rfl

namespace MappingEntry

theorem cleanTokens_split_intercalate {tokens : List String}
    (hcommas : ∀ token ∈ tokens, ',' ∉ token.toList) :
    cleanTokens (Text.split ',' (",".intercalate tokens)) =
      cleanTokens tokens := by
  cases tokens with
  | nil => rfl
  | cons token rest =>
      rw [Text.split_intercalate (List.cons_ne_nil token rest) hcommas]

/-- The ways to give tokens: a list of texts, or their text with commas. -/
inductive Gives (tokens : List String) : Value → Prop
  | list : Gives tokens (.list label (tokens.map .text))
  | joined : Gives tokens (.text (",".intercalate tokens))

def ofTexts (kind : String) (tokens : List String) : MappingEntry :=
  ⟨Text.trim kind, cleanTokens tokens⟩

theorem readTokens_of_gives {tokens : List String} {given : Value}
    (hcommas : ∀ token ∈ tokens, ',' ∉ token.toList)
    (hgiven : Gives tokens given) :
    readTokens given = .ok (cleanTokens tokens) := by
  cases hgiven with
  | list =>
      exact readTokens_eq_ok_iff.mpr
        ⟨tokens, tokenTexts?_list_texts _ tokens, rfl⟩
  | joined => exact congrArg Except.ok (cleanTokens_split_intercalate hcommas)

theorem ofParts_of_gives {kind : String} {tokens : List String} {given : Value}
    (hcommas : ∀ token ∈ tokens, ',' ∉ token.toList)
    (hgiven : Gives tokens given) :
    ofParts (.text kind) given = .ok (ofTexts kind tokens) := by
  refine ofParts_eq_ok_iff.mpr ⟨?_, readTokens_of_gives hcommas hgiven⟩
  exact readKind_eq_ok_iff.mpr ⟨kind, rfl, rfl⟩

theorem Made.ofParts_eq {entry : MappingEntry} (hmade : entry.Made)
    (label : Option Nat) :
    ofParts (.text entry.kind) (.list label (entry.tokens.map .text)) =
      .ok entry := by
  refine ofParts_eq_ok_iff.mpr
    ⟨readKind_eq_ok_iff.mpr ⟨entry.kind, rfl, hmade.clean.kind⟩, ?_⟩
  exact readTokens_eq_ok_iff.mpr
    ⟨entry.tokens, tokenTexts?_list_texts label entry.tokens,
      cleanTokens_of_clean hmade.clean.tokens⟩

theorem isValid_ofTexts_eq_false_iff {kind : String} {tokens : List String} :
    (ofTexts kind tokens).isValid = false ↔
      Text.isBlankText kind = true ∨ ∀ token ∈ tokens,
        Text.isBlankText token = true := by
  rw [isValid_eq_false_iff, ofTexts, Text.trim_eq_empty_iff,
    cleanTokens_eq_nil_iff]

end MappingEntry

namespace Registry

/-- The ways to give a kind and tokens. A mapping may have other fields as
well. -/
inductive Form (kind : String) (tokens : List String) : EntryInput → Prop
  | pair (hgiven : MappingEntry.Gives tokens given) :
      Form kind tokens (.loose (.pair (.text kind) given))
  | row (hgiven : MappingEntry.Gives tokens given) :
      Form kind tokens (.loose (.list label [.text kind, given]))
  | mapping (hkind : Value.field? fields "kind" = some (.text kind))
      (htokens : Value.field? fields "tokens" = some given)
      (hgiven : MappingEntry.Gives tokens given) :
      Form kind tokens (.loose (.mapping label fields))
  | ready (hgiven : MappingEntry.Gives tokens given)
      (hentry : MappingEntry.ofParts (.text kind) given = .ok entry) :
      Form kind tokens (.ready entry)

variable {kind : String} {tokens : List String} {item other : EntryInput}

/-- Whatever the form, the same entry is read. -/
theorem readEntry_of_form (hcommas : ∀ token ∈ tokens, ',' ∉ token.toList)
    (hform : Form kind tokens item) :
    readEntry item = .ok (.ofTexts kind tokens) := by
  cases hform with
  | pair hgiven =>
      exact readEntry_loose_eq_ok_iff.mpr
        ⟨_, _, rfl, MappingEntry.ofParts_of_gives hcommas hgiven⟩
  | row hgiven =>
      exact readEntry_loose_eq_ok_iff.mpr
        ⟨_, _, rfl, MappingEntry.ofParts_of_gives hcommas hgiven⟩
  | mapping hkind htokens hgiven =>
      refine readEntry_loose_eq_ok_iff.mpr ⟨_, _, rfl, ?_⟩
      rw [hkind, htokens]
      exact MappingEntry.ofParts_of_gives hcommas hgiven
  | ready hgiven hentry =>
      rw [MappingEntry.ofParts_of_gives hcommas hgiven] at hentry
      cases hentry
      rfl

theorem upsert_congr (registry : Registry)
    (hsame : readEntry item = readEntry other)
    (before after : List EntryInput) :
    registry.upsert (.entries (before ++ item :: after)) =
      registry.upsert (.entries (before ++ other :: after)) := by
  have hread : (before ++ item :: after).mapM readEntry =
      (before ++ other :: after).mapM readEntry := by
    simp only [List.mapM_append, List.mapM_cons, hsame]
  rw [upsert, upsert, hread]

theorem upsert_singleton {entry : MappingEntry} (registry : Registry)
    (hread : readEntry item = .ok entry) :
    registry.upsert (.entries [item]) =
      if entry.isValid then .ok (registry.add entry)
      else .error
        (.failure (.mapping (.blankEntry entry.kind entry.tokens))) := by
  have hall : [item].mapM readEntry = .ok [entry] := by
    rw [List.mapM_cons, hread]
    rfl
  rw [upsert, hall]
  cases hvalid : entry.isValid with
  | true => simp [bind, Except.bind, checkEntries, hvalid, addAll]
  | false => simp [bind, Except.bind, checkEntries, hvalid]

/-- The forms of one kind and its tokens are the same to a registry, alone or in
any batch: all are added as the entry of the trimmed texts, or all are refused
since nothing is left of the kind or of the tokens. What is left is trimmed for
good. -/
theorem upsert_forms (registry : Registry) (kind : String)
    {tokens : List String} (hcommas : ∀ token ∈ tokens, ',' ∉ token.toList) :
    (∀ item other, Form kind tokens item → Form kind tokens other →
      ∀ before after,
        registry.upsert (.entries (before ++ item :: after)) =
          registry.upsert (.entries (before ++ other :: after))) ∧
      (Text.isBlankText kind = true ∨
          (∀ token ∈ tokens, Text.isBlankText token = true) →
        ∀ item, Form kind tokens item →
          registry.upsert (.entries [item]) =
            .error (.failure (.mapping (.blankEntry (Text.trim kind)
              (MappingEntry.cleanTokens tokens))))) ∧
      (¬(Text.isBlankText kind = true ∨
          ∀ token ∈ tokens, Text.isBlankText token = true) →
        ∀ item, Form kind tokens item →
          registry.upsert (.entries [item]) =
            .ok (registry.add
              ⟨Text.trim kind, MappingEntry.cleanTokens tokens⟩)) ∧
      ∀ entry : MappingEntry, entry.Made → ∀ label,
        MappingEntry.ofParts (.text entry.kind)
            (.list label (entry.tokens.map .text)) =
          .ok entry := by
  refine ⟨fun item other hitem hother => ?_, fun hblank item hitem => ?_,
    fun hfull item hitem => ?_, fun entry hmade => hmade.ofParts_eq⟩
  · apply upsert_congr registry
    rw [readEntry_of_form hcommas hitem, readEntry_of_form hcommas hother]
  · have hinvalid := MappingEntry.isValid_ofTexts_eq_false_iff.mpr hblank
    rw [upsert_singleton registry (readEntry_of_form hcommas hitem),
      if_neg (by simp [hinvalid])]
    rfl
  · have hvalid := mt MappingEntry.isValid_ofTexts_eq_false_iff.mp hfull
    rw [upsert_singleton registry (readEntry_of_form hcommas hitem),
      if_pos (Bool.of_not_eq_false hvalid)]
    rfl

/-- A padded, a blank and a repeated token, in a list and in a text with commas.
What is made of them stays as it is. -/
theorem upsert_forms_padded :
    let tokens := [" dc", "", "dc", "deploymentconfig "]
    let entry : MappingEntry :=
      ⟨"DeploymentConfig", ["dc", "dc", "deploymentconfig"]⟩
    ((∀ token ∈ tokens, ',' ∉ token.toList) ∧ entry.Made) ∧
      empty.upsert (.entries [.loose (.pair (.text " DeploymentConfig")
        (.text " dc,,dc,deploymentconfig "))]) = .ok (empty.add entry) ∧
      empty.upsert
        (.entries
          [.loose
            (.mapping none
              [(.text "kind", .text " DeploymentConfig"),
                (.text "tokens", .list none (tokens.map .text))])]) =
          .ok (empty.add entry) ∧
      MappingEntry.ofParts (.text entry.kind)
        (.list none (entry.tokens.map .text)) =
        .ok entry := by
  intro tokens entry
  have hcommas : ∀ token ∈ tokens, ',' ∉ token.toList := by decide
  have hmade : entry.Made :=
    ⟨.text " DeploymentConfig", .text " dc,,dc,deploymentconfig ", by
      decide +kernel⟩
  obtain ⟨-, -, hadded, hagain⟩ :=
    upsert_forms empty " DeploymentConfig" hcommas
  have hfull : ¬(Text.isBlankText " DeploymentConfig" = true ∨
      ∀ token ∈ tokens, Text.isBlankText token = true) := by
    decide +kernel
  exact ⟨⟨hcommas, hmade⟩, hadded hfull _ (.pair .joined),
    hadded hfull _ (.mapping rfl rfl .list), hagain entry hmade none⟩

end Registry

end Fragments
