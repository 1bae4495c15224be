import Fragments.Proofs.Data.Display
import Fragments.Proofs.Enrichment.Complete

namespace Fragments

/-- Whether a value is a mapping, or a mention of the one that it is in. -/
def Value.isMapping : Value → Bool
  | mapping _ _ => true
  | back _ => true
  | _ => false

namespace Fragment

/-- The version that is declared, or the one for the kind. Null is no
version. -/
def knownVersion (fragment : Fragment) (versioning : Versioning)
    (kind : Option Value) :
    Option Value :=
  match fragment.settledVersion versioning kind with
  | some (.scalar .null) => none
  | version => version

def versioned (fragment : Fragment) (versioning : Versioning) : Fragment :=
  fragment.put "apiVersion"
    (fragment.knownVersion versioning (fragment.present? "kind"))

/-- The fragment with its kind and version; the metadata are as they were. -/
def identified (fragment : Fragment) (file : FileName) (versioning : Versioning)
    (registry : Registry) : Fragment :=
  (fragment.put "kind" (fragment.settledKind file registry)).versioned
    versioning

theorem present?_ne_null (fragment : Fragment) (key : String) :
    fragment.present? key ≠ some (.scalar .null) := by
  unfold Fragment.present? Value.present?
  split
  · nofun
  · next hother => exact hother

theorem present?_put_self {key : String} {value : Option Value}
    {fragment : Fragment} (hvalue : value ≠ some (.scalar .null)) :
    (fragment.put key value).present? key =
      value.or (fragment.present? key) := by
  cases value with
  | none => rfl
  | some value =>
      rw [Option.some_or, put, Fragment.present?, Fragment.assign,
        Value.present?, Value.field?_assign_self]
      split
      · next hnull => exact absurd hnull hvalue
      · rfl

theorem field?_put_self (key : String) (value : Option Value)
    (fragment : Fragment) :
    Value.field? (fragment.put key value).entries key =
      value.or (Value.field? fragment.entries key) := by
  cases value with
  | none => rfl
  | some value => exact Value.field?_assign_self key value fragment.entries

theorem knownVersion_of_present {fragment : Fragment} {version : Value}
    (hversion : fragment.present? "apiVersion" = some version)
    (versioning : Versioning) (kind : Option Value) :
    fragment.knownVersion versioning kind = some version := by
  have hnull := fragment.present?_ne_null "apiVersion"
  rw [hversion] at hnull
  unfold knownVersion settledVersion
  rw [hversion, Option.some_or]
  split
  · next hversion => exact absurd hversion hnull
  · rfl

theorem knownVersion_ne_null (fragment : Fragment) (versioning : Versioning)
    (kind : Option Value) :
    fragment.knownVersion versioning kind ≠ some (.scalar .null) := by
  unfold knownVersion
  split
  · nofun
  · next hother => exact hother

theorem knownVersion_congr {fragment other : Fragment}
    (hpresent : fragment.present? "apiVersion" = other.present? "apiVersion")
    (versioning : Versioning) (kind : Option Value) :
    fragment.knownVersion versioning kind =
      other.knownVersion versioning kind := by
  unfold knownVersion
  rw [Enrichment.settledVersion_congr hpresent]

end Fragment

namespace Enrichment

/-- A declared kind cannot be shown only if it holds an integer of too many
digits. -/
theorem checkShown_eq (declared : Value) :
    checkShown declared =
      if declared.display = .error Number.tooLongToWrite then
        .error (.fault Number.tooLongToWrite)
      else .ok () := by
  cases hshown : declared.display with
  | ok shown =>
      rw [if_neg nofun]
      unfold checkShown
      split
      · rfl
      · rw [hshown]
        rfl
  | error fault =>
      obtain rfl : fault = Number.tooLongToWrite :=
        Value.displayIn_fails [] declared fault hshown
      rw [if_pos rfl]
      unfold checkShown
      split
      · cases hshown
      · rw [hshown]
        rfl

theorem enrichKind_of_error {state : State} {problem : Problem}
    (hkind : kindOfFileName state.context = .error problem) :
    enrichKind state = (state, some problem) := by
  rw [enrichKind, hkind]

theorem enrichKind_of_missing {state : State}
    (hkind : kindOfFileName state.context = .ok none)
    (hdeclared : state.fragment.present? "kind" = none) :
    enrichKind state = ({ state with context := settleName state.context none },
      some (.failure (.missingKind state.context.fileName))) := by
  rw [enrichKind, hkind]
  simp only [hdeclared]

theorem enrichKind_of_unshown {state : State} {kind : String} {declared : Value}
    (hkind : kindOfFileName state.context = .ok (some kind))
    (hdeclared : state.fragment.present? "kind" = some declared)
    (hshown : declared.display = .error Number.tooLongToWrite) :
    enrichKind state =
      ({ state with context := settleName state.context (some kind) },
        some (.fault Number.tooLongToWrite)) := by
  rw [enrichKind, hkind]
  simp only [hdeclared, checkShown_eq, if_pos hshown]

theorem enrichKind_eq_done_iff {state after : State} :
    enrichKind state = (after, none) ↔
      ∃ kind, kindOfFileName state.context = .ok kind ∧
        ((state.fragment.present? "kind").or (kind.map .text)).isSome ∧
        (kind.isSome →
          ∀ declared, state.fragment.present? "kind" = some declared →
            declared.display ≠ .error Number.tooLongToWrite) ∧
        after = ⟨state.fragment.put "kind"
          ((state.fragment.present? "kind").or (kind.map .text)),
            settleName state.context kind⟩ := by
  cases hkind : kindOfFileName state.context with
  | error problem => simp [enrichKind_of_error hkind]
  | ok kind =>
      simp only [Except.ok.injEq, exists_eq_left', enrichKind, hkind]
      cases hdeclared : state.fragment.present? "kind" with
      | none => cases kind <;> simp [Fragment.put, eq_comm]
      | some declared =>
          rw [Option.some_or, Fragment.put_present? hdeclared]
          cases kind with
          | none => simp [eq_comm]
          | some kind =>
              by_cases hshown : declared.display = .error Number.tooLongToWrite
              · simp [checkShown_eq, hshown]
              · simpa [checkShown_eq, hshown] using eq_comm

theorem enrichApiVersion_eq_versioned (state : State) :
    enrichApiVersion state =
      { state with fragment :=
        state.fragment.versioned state.context.versioning } := by
  unfold Fragment.versioned
  cases hversion : state.fragment.present? "apiVersion" with
  | some version =>
      rw [enrichApiVersion_of_present state (by rw [hversion]; rfl),
        Fragment.knownVersion_of_present hversion,
        Fragment.put_present? hversion]
  | none =>
      unfold enrichApiVersion Fragment.knownVersion Fragment.settledVersion
      rw [hversion, Option.none_or]
      split
      · next kind _ hkind =>
          rw [hkind]
          dsimp only
          split
          · next hnull => rw [hnull]; rfl
          · next hother =>
              split
              · next hnull => exact absurd (Option.some.inj hnull) hother
              · rfl
      · next hother =>
          split
          · rfl
          · split
            · next kind hkind => exact absurd hkind (hother kind rfl)
            · rfl

theorem enrichName_of_malformed {state : State} {metadata : Value}
    (hmetadata : state.fragment.present? "metadata" = some metadata)
    (hmapping : metadata.isMapping = false) :
    enrichName state =
      (state,
        some (.failure
          (.metadataType metadata.typeName
            (some state.context.fileName)))) := by
  cases metadata with
  | mapping _ _ | back _ => cases hmapping
  | scalar _ | list _ _ | set _ _ | pair _ _ =>
      simp only [enrichName, withMetadata, hmetadata]

theorem enrichName_of_mapping {state : State}
    (hmapping : ∀ metadata, state.fragment.present? "metadata" = some metadata →
      metadata.isMapping = true) :
    ∃ named, enrichName state = ({ state with fragment := named }, none) := by
  have hmetadata : ∃ fragment, withMetadata state.fragment = .ok fragment := by
    cases hpresent : state.fragment.present? "metadata" with
    | none => exact ⟨_, by rw [withMetadata, hpresent]⟩
    | some metadata =>
        have hmapping := hmapping metadata hpresent
        cases metadata with
        | mapping _ _ | back _ => exact ⟨_, by rw [withMetadata, hpresent]⟩
        | scalar _ | list _ _ | set _ _ | pair _ _ => cases hmapping
  obtain ⟨fragment, hfragment⟩ := hmetadata
  simp only [enrichName, hfragment]
  split
  · exact ⟨_, rfl⟩
  · exact ⟨_, rfl⟩

theorem enrichName_of_owned {state : State}
    (howned : ∀ metadata, state.fragment.present? "metadata" = some metadata →
      ∃ entries, metadata = .mapping none entries) :
    enrichName state =
      ({ state with
          fragment := state.fragment.assign "metadata"
            (state.fragment.settledMetadata (resourceName state.context)) },
            none) := by
  obtain ⟨named, hdone⟩ := enrichName_of_mapping fun metadata hmetadata => by
    obtain ⟨entries, rfl⟩ := howned metadata hmetadata
    rfl
  have hnamed := enrichName_eq hdone
    (fun label entries hmetadata => by
      obtain ⟨_, heq⟩ := howned _ hmetadata
      cases heq
      rfl)
    (fun label hmetadata => by
      obtain ⟨_, heq⟩ := howned _ hmetadata
      cases heq)
  rw [hdone]
  exact congrArg (fun fragment => ({ state with fragment }, none)) hnamed

end Enrichment

end Fragments
