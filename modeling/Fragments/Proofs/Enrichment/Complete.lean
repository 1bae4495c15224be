import Fragments.Proofs.Enrichment.Frame

namespace Fragments

/-- Whether the type of a file name, if it has one, is among the tokens of the
registry. -/
def FileName.HasKnownType (file : FileName) (registry : Registry) : Prop :=
  ∀ token, file.typeToken = some token → (registry.kindOf? token).isSome

namespace Fragment

/-- Whether nothing of the identity is left to be filled in. -/
structure Complete (fragment : Fragment) : Prop where
  kind : ∃ kind, fragment.present? "kind" = some (.text kind)
  apiVersion : (fragment.present? "apiVersion").isSome
  metadata : ∃ label entries,
    fragment.present? "metadata" = some (.mapping label entries) ∧
    (Value.present? entries "name").isSome

end Fragment

namespace Enrichment

variable {fragment : Fragment} {file : FileName} {appName : String}
  {versioning : Versioning} {registry : Registry}

theorem kindOfFileName_of_known (htype : file.HasKnownType registry)
    (appName : String) (versioning : Versioning) :
    ∃ kind, kindOfFileName (context file appName versioning registry) =
      .ok kind := by
  unfold kindOfFileName
  split
  · next token htoken =>
      obtain ⟨kind, hkind⟩ := Option.isSome_iff_exists.mp (htype token htoken)
      have hfound :
          (context file appName versioning registry).registry.kindOf? token =
        some kind := hkind
      rw [hfound]
      exact ⟨some kind, rfl⟩
  · exact ⟨_, rfl⟩

theorem enrichKind_of_text (state : State) {kind : Option String}
    {declared : String} (hkind : kindOfFileName state.context = .ok kind)
    (hdeclared : state.fragment.present? "kind" = some (.text declared)) :
    enrichKind state =
      ({ state with context := settleName state.context kind }, none) := by
  unfold enrichKind
  rw [hkind, hdeclared]
  cases kind <;> rfl

theorem enrichApiVersion_of_present (state : State)
    (hversion : (state.fragment.present? "apiVersion").isSome) :
    enrichApiVersion state = state := by
  unfold enrichApiVersion
  split
  · next hnone _ =>
      rw [hnone] at hversion
      cases hversion
  · rfl

theorem enrichName_of_named (state : State) {label : Option Nat}
    {entries : List (Scalar × Value)}
    (hmetadata : state.fragment.present? "metadata" =
      some (.mapping label entries))
    (hname : (Value.present? entries "name").isSome) :
    enrichName state = (state, none) := by
  obtain ⟨name, hname⟩ := Option.isSome_iff_exists.mp hname
  simp only [enrichName, withMetadata, metadataEntries, hmetadata, hname]

/-- Nothing is filled in where nothing is missing. -/
theorem enrich_of_complete (hcomplete : fragment.Complete)
    (htype : file.HasKnownType registry) (appName : String)
    (versioning : Versioning) :
    enrich fragment file appName versioning registry = (fragment, none) := by
  obtain ⟨declared, hdeclared⟩ := hcomplete.kind
  obtain ⟨label, entries, hmetadata, hname⟩ := hcomplete.metadata
  obtain ⟨kind, hkind⟩ := kindOfFileName_of_known htype appName versioning
  have hfirst :=
    enrichKind_of_text ⟨fragment, context file appName versioning registry⟩
      hkind hdeclared
  have hsecond := enrichApiVersion_of_present
    ⟨fragment, settleName (context file appName versioning registry) kind⟩
      hcomplete.apiVersion
  have hthird := enrichName_of_named
    ⟨fragment, settleName (context file appName versioning registry) kind⟩
      hmetadata hname
  simp only [enrich, Enricher.chain, run, apply, hfirst, hsecond, hthird]

theorem present?_name_assign (text : String) (entries : List (Scalar × Value)) :
    (Value.present? (Value.assign "name" (.text text) entries)
      "name").isSome := by
  simp [Value.present?, Value.text]

theorem field?_changeLabelled_name (label : Nat) (name : String)
    (fragment : Fragment) :
    Value.field? (fragment.changeLabelled label
      (Value.assign "name" (.text name))).entries
        "metadata" =
      (Value.field? fragment.entries "metadata").map
        (Value.changeLabelled label (Value.assign "name" (.text name))) := by
  rw [← Value.field?_changeLabelledEntries]
  unfold Fragment.changeLabelled
  dsimp only
  split
  · exact Value.field?_assign_of_ne (by decide) _ _
  · rfl

theorem named_of_enrichName {state after : State}
    (hdone : enrichName state = (after, none))
    (hback : ∀ label, Value.field? after.fragment.entries "metadata" ≠
      some (.back label)) :
    ∃ label entries, Value.field? after.fragment.entries "metadata" =
      some (.mapping label entries) ∧
        (Value.present? entries "name").isSome := by
  cases hbefore : state.fragment.present? "metadata" with
  | none =>
      have hempty :
          (state.fragment.assign "metadata" (.mapping none [])).present?
            "metadata" =
          some (.mapping none []) := by
        simp [Fragment.present?, Fragment.assign, Value.present?]
      simp only [enrichName, withMetadata, hbefore, metadataEntries, hempty,
        changeMetadata] at hdone
      cases hdone
      exact ⟨_, _, Value.field?_assign_self _ _ _, present?_name_assign _ _⟩
  | some metadata =>
      have hfield := Value.field?_of_present?_eq_some hbefore
      cases metadata with
      | mapping own entries =>
          simp only [enrichName, withMetadata, hbefore, metadataEntries,
            changeMetadata] at hdone
          split at hdone
          · next name hname =>
              cases hdone
              exact ⟨own, entries, hfield,
                Option.isSome_iff_exists.mpr ⟨name, hname⟩⟩
          · cases own with
            | none =>
                cases hdone
                exact ⟨_, _, Value.field?_assign_self _ _ _,
                  present?_name_assign _ _⟩
            | some shared =>
                cases hdone
                have hchanged := field?_changeLabelled_name shared
                  (resourceName state.context) state.fragment
                rw [hfield, Option.map_some, Value.changeLabelled, if_pos rfl]
                  at hchanged
                exact ⟨_, _, hchanged, present?_name_assign _ _⟩
      | back own =>
          exact absurd (field?_enrichName_back hdone hbefore) (hback own)
      | scalar _ | list _ _ | set _ _ | pair _ _ =>
          simp [enrichName, withMetadata, hbefore] at hdone

theorem named_of_enrich
    (hdone : (enrich fragment file appName versioning registry).2 = none)
    (hback : ∀ label,
      Value.field? (enrich fragment file appName versioning registry).1.entries
        "metadata" ≠ some (.back label)) :
    ∃ label entries,
      Value.field? (enrich fragment file appName versioning registry).1.entries
        "metadata" = some (.mapping label entries) ∧
          (Value.present? entries "name").isSome := by
  obtain ⟨before, after, -, -, -, hthird, hafter⟩ := enrich_steps hdone
  rw [hafter] at hback ⊢
  exact named_of_enrichName hthird hback

end Enrichment

end Fragments
