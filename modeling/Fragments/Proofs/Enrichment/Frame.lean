import Fragments.Proofs.Enrichment.Identity

namespace Fragments

namespace Fragment

def identityKeys : List String := ["kind", "apiVersion", "metadata"]

/-- The label of metadata that declare no name, if they are shared. -/
def unnamedLabel? (fragment : Fragment) : Option Nat :=
  match fragment.present? "metadata" with
  | some (.mapping label entries) =>
      if (Value.present? entries "name").isNone then label else none
  | _ => none

/-- What naming the metadata makes of a value somewhere in the fragment. -/
def touched (fragment : Fragment) (name : String) (value : Value) : Value :=
  match fragment.unnamedLabel? with
  | some label => value.changeLabelled label (Value.assign "name" (.text name))
  | none => value

/-- Whether the fragment has no version and none is known for its kind
either. -/
def LacksVersion (fragment : Fragment) (file : FileName)
    (versioning : Versioning) (registry : Registry) : Prop :=
  Value.field? fragment.entries "apiVersion" = none ∧
    ∀ kind, fragment.settledKind file registry = some (.text kind) →
      versioning.forKind kind = .null

theorem unnamedLabel?_eq_some_iff {fragment : Fragment} {label : Nat} :
    fragment.unnamedLabel? = some label ↔
      ∃ entries, fragment.present? "metadata" =
        some (.mapping (some label) entries) ∧
        Value.present? entries "name" = none := by
  unfold unnamedLabel?
  split
  · next own entries hmetadata =>
      rw [hmetadata, Option.ite_none_right_eq_some, Option.isNone_iff_eq_none]
      constructor
      · rintro ⟨hname, rfl⟩
        exact ⟨entries, rfl, hname⟩
      · rintro ⟨_, heq, hname⟩
        cases heq
        exact ⟨hname, rfl⟩
  · next hother =>
      simp only [reduceCtorEq, false_iff, not_exists, not_and]
      intro entries hmetadata
      exact absurd hmetadata (hother _ _)

theorem unnamedLabel?_congr {fragment other : Fragment}
    (hpresent : fragment.present? "metadata" = other.present? "metadata") :
    fragment.unnamedLabel? = other.unnamedLabel? := by
  unfold unnamedLabel?
  rw [hpresent]

theorem touched_of_eq_some {fragment : Fragment} {label : Nat}
    (hlabel : fragment.unnamedLabel? = some label) (name : String) :
    fragment.touched name =
      Value.changeLabelled label (Value.assign "name" (.text name)) := by
  funext value
  simp only [touched, hlabel]

theorem touched_of_eq_none {fragment : Fragment}
    (hlabel : fragment.unnamedLabel? = none) (name : String) :
    fragment.touched name = id := by
  funext value
  simp only [touched, hlabel, id]

theorem field?_assign_of_ne {key other : String} (hne : key ≠ other)
    (value : Value) (fragment : Fragment) :
    Value.field? (fragment.assign key value).entries other =
      Value.field? fragment.entries other :=
  Value.field?_assign_of_ne hne value fragment.entries

theorem field?_put_of_ne {key other : String} (hne : key ≠ other)
    (value : Option Value) (fragment : Fragment) :
    Value.field? (fragment.put key value).entries other =
      Value.field? fragment.entries other := by
  cases value with
  | none => rfl
  | some value => exact field?_assign_of_ne hne value fragment

theorem label_put (key : String) (value : Option Value) (fragment : Fragment) :
    (fragment.put key value).label = fragment.label := by
  cases value <;> rfl

end Fragment

namespace Enrichment

theorem enrichApiVersion_frame (state : State) :
    (enrichApiVersion state).context = state.context ∧
      ∃ version, (enrichApiVersion state).fragment =
        state.fragment.put "apiVersion" version := by
  unfold enrichApiVersion
  split
  · split
    · exact ⟨rfl, none, rfl⟩
    · exact ⟨rfl, some _, rfl⟩
  · exact ⟨rfl, none, rfl⟩

theorem field?_enrichApiVersion_eq_none_iff {state : State} :
    Value.field? (enrichApiVersion state).fragment.entries "apiVersion" = none ↔
      Value.field? state.fragment.entries "apiVersion" = none ∧
        ∀ kind, state.fragment.present? "kind" = some (.text kind) →
          state.context.versioning.forKind kind = .null := by
  unfold enrichApiVersion
  split
  · next kind hversion hkind =>
      have hkind : state.fragment.present? "kind" = some (.text kind) := hkind
      split
      · next hnull =>
          refine ⟨fun hfield => ⟨hfield, fun other hother => ?_⟩, And.left⟩
          rw [hkind] at hother
          cases hother
          exact hnull
      · next hsome =>
          simp only [Fragment.assign, Value.field?_assign_self, reduceCtorEq,
            false_iff, not_and]
          exact fun _ hall => hsome (hall kind hkind)
  · next hother =>
      refine ⟨fun hfield => ⟨hfield, fun kind hkind => ?_⟩, And.left⟩
      refine absurd hkind (hother kind ?_)
      simp [Fragment.present?, Value.present?, hfield]

theorem field?_enrichName_of_eq_none {state after : State}
    (hdone : enrichName state = (after, none))
    (hback : ∀ label, state.fragment.present? "metadata" ≠ some (.back label))
    (hlabel : state.fragment.unnamedLabel? = none) {key : String}
    (hkey : key ≠ "metadata") :
    Value.field? after.fragment.entries key =
      Value.field? state.fragment.entries key := by
  cases hmetadata : state.fragment.present? "metadata" with
  | none =>
      have hempty :
          (state.fragment.assign "metadata" (.mapping none [])).present?
            "metadata" = some (.mapping none []) := by
        simp [Fragment.present?, Fragment.assign, Value.present?]
      simp only [enrichName, withMetadata, hmetadata, metadataEntries, hempty,
        changeMetadata] at hdone
      cases hdone
      rw [Fragment.field?_assign_of_ne hkey.symm,
        Fragment.field?_assign_of_ne hkey.symm]
  | some metadata =>
      cases metadata with
      | mapping own entries =>
          simp only [enrichName, withMetadata, hmetadata, metadataEntries,
            changeMetadata] at hdone
          split at hdone
          · cases hdone
            rfl
          · next hname =>
              cases own with
              | none =>
                  cases hdone
                  exact Fragment.field?_assign_of_ne hkey.symm _ _
              | some label =>
                  have hsome := Fragment.unnamedLabel?_eq_some_iff.mpr
                    ⟨entries, hmetadata, hname⟩
                  rw [hlabel] at hsome
                  cases hsome
      | back label => exact absurd hmetadata (hback label)
      | scalar _ | list _ _ | set _ _ | pair _ _ =>
          simp [enrichName, withMetadata, hmetadata] at hdone

theorem enrichName_frame {state after : State}
    (hdone : enrichName state = (after, none))
    (hback : ∀ label, state.fragment.present? "metadata" ≠ some (.back label))
    (hapart : ∀ label, state.fragment.unnamedLabel? = some label →
      state.fragment.label ≠ some label) :
    (∀ key, key ≠ "metadata" → Value.field? after.fragment.entries key =
      (Value.field? state.fragment.entries key).map
        (state.fragment.touched (resourceName state.context))) ∧
      ∀ label entries, state.fragment.unnamedLabel? = some label →
        state.fragment.present? "metadata" =
          some (.mapping (some label) entries) →
        Value.field? after.fragment.entries "metadata" =
          some ((Value.mapping (some label) entries).changeLabelled label
            (Value.assign "name" (.text (resourceName state.context)))) := by
  cases hlabel : state.fragment.unnamedLabel? with
  | some label =>
      obtain ⟨entries, hmetadata, hname⟩ :=
        Fragment.unnamedLabel?_eq_some_iff.mp hlabel
      simp only [enrichName, withMetadata, hmetadata, metadataEntries, hname,
        changeMetadata, Fragment.changeLabelled, if_neg (hapart label hlabel)]
        at hdone
      cases hdone
      refine ⟨fun key _ => ?_, fun own others hown hothers => ?_⟩
      · rw [Value.field?_changeLabelledEntries,
          Fragment.touched_of_eq_some hlabel]
      · cases hown
        rw [Value.field?_changeLabelledEntries,
          Value.field?_of_present?_eq_some hothers]
        rfl
  | none =>
      refine ⟨fun key hkey => ?_, fun label entries hsome => by cases hsome⟩
      rw [Fragment.touched_of_eq_none hlabel, Option.map_id_fun, id]
      exact field?_enrichName_of_eq_none hdone hback hlabel hkey

theorem field?_enrichName_back {state after : State}
    (hdone : enrichName state = (after, none)) {label : Nat}
    (hback : state.fragment.present? "metadata" = some (.back label)) :
    Value.field? after.fragment.entries "metadata" = some (.back label) := by
  have hfield := Value.field?_of_present?_eq_some hback
  simp only [enrichName, withMetadata, hback, metadataEntries, changeMetadata]
    at hdone
  split at hdone
  · cases hdone
    exact hfield
  · cases hdone
    unfold Fragment.changeLabelled
    have hinner : ∀ change,
        Value.field?
          (Value.changeLabelledEntries label change state.fragment.entries)
            "metadata" = some (.back label) := by
      intro change
      rw [Value.field?_changeLabelledEntries, hfield]
      rfl
    split
    · rw [Value.field?_assign_of_ne (by decide), hinner]
    · exact hinner _

section

variable {fragment : Fragment} {file : FileName} {appName : String}
  {versioning : Versioning} {registry : Registry}

theorem enrich_steps
    (hdone : (enrich fragment file appName versioning registry).2 = none) :
    ∃ (before after : State),
      (∃ version, before.fragment =
        (fragment.put "kind" (fragment.settledKind file registry)).put
          "apiVersion" version) ∧
      (Value.field? before.fragment.entries "apiVersion" = none ↔
        fragment.LacksVersion file versioning registry) ∧
      resourceName before.context = file.nameIn appName registry ∧
      enrichName before = (after, none) ∧
      (enrich fragment file appName versioning registry).1 =
        after.fragment := by
  obtain ⟨kinded, named, hfirst, hthird, hlast⟩ := exists_kinded_of_enrich hdone
  obtain ⟨kind, hkind, hcontext, -, hfragment⟩ := enrichKind_eq hfirst
  have hgiven := kind_eq_kindIn? hkind
  subst hgiven
  have hfragment : kinded.fragment =
      fragment.put "kind" (fragment.settledKind file registry) := hfragment
  obtain ⟨hsame, version, hversion⟩ := enrichApiVersion_frame kinded
  refine ⟨_, _, ⟨version, by rw [hversion, hfragment]⟩, ?_, ?_, hthird, hlast⟩
  · have hkinded :
        (fragment.put "kind" (fragment.settledKind file registry)).present?
          "kind" =
        fragment.settledKind file registry :=
      Fragment.present?_put_text (file.kindIn? registry) fragment
    rw [field?_enrichApiVersion_eq_none_iff, Fragment.LacksVersion, hfragment,
      Fragment.field?_put_of_ne (by decide), hcontext,
      settleName_versioning, hkinded]
    rfl
  · rw [hsame, hcontext, resourceName_settleName hkind]

theorem field?_enrich_back
    (hdone : (enrich fragment file appName versioning registry).2 = none)
    {label : Nat} (hback : fragment.present? "metadata" = some (.back label)) :
    Value.field? (enrich fragment file appName versioning registry).1.entries
      "metadata" =
      some (.back label) := by
  obtain ⟨before, after, ⟨version, hbefore⟩, -, -, hthird, hafter⟩ :=
    enrich_steps hdone
  rw [hafter]
  refine field?_enrichName_back hthird ?_
  rw [hbefore, Fragment.present?_put_of_ne (by decide),
    Fragment.present?_put_of_ne (by decide), hback]

/-- A finished enrichment leaves the other fields alone, but for the metadata
that they mention. -/
theorem enrich_frame {outlines : Nat → List (Scalar × Option Scalar)}
    (hcoherent : fragment.Coherent outlines)
    (hback : ∀ label, fragment.present? "metadata" ≠ some (.back label))
    (hdone : (enrich fragment file appName versioning registry).2 = none) :
    (∀ key, key ∉ Fragment.identityKeys →
      Value.field? (enrich fragment file appName versioning registry).1.entries
        key =
        (Value.field? fragment.entries key).map
          (fragment.touched (file.nameIn appName registry))) ∧
      (Value.field? (enrich fragment file appName versioning registry).1.entries
          "apiVersion" = none ↔
            fragment.LacksVersion file versioning registry) ∧
      ∀ label entries, fragment.unnamedLabel? = some label →
        fragment.present? "metadata" = some (.mapping (some label) entries) →
        Value.field?
          (enrich fragment file appName versioning registry).1.entries
            "metadata" =
          some ((Value.mapping (some label) entries).changeLabelled label
            (Value.assign "name" (.text (file.nameIn appName registry)))) := by
  obtain ⟨before, after, ⟨version, hbefore⟩, hlacks, hname, hthird, hafter⟩ :=
    enrich_steps hdone
  have hmetadata : before.fragment.present? "metadata" =
      fragment.present? "metadata" := by
    rw [hbefore, Fragment.present?_put_of_ne (by decide),
      Fragment.present?_put_of_ne (by decide)]
  have hunnamed := Fragment.unnamedLabel?_congr hmetadata
  have htouched : before.fragment.touched = fragment.touched := by
    funext name value
    simp only [Fragment.touched, hunnamed]
  obtain ⟨hothers, hnamed⟩ :=
    enrichName_frame hthird (by rw [hmetadata]; exact hback)
      (fun label hlabel => by
        obtain ⟨entries, hmapping, -⟩ :=
          Fragment.unnamedLabel?_eq_some_iff.mp (hunnamed ▸ hlabel)
        rw [hbefore, Fragment.label_put, Fragment.label_put]
        exact hcoherent.apart
          (Value.mem_of_field?_eq_some
            (Value.field?_of_present?_eq_some hmapping)) rfl)
  rw [hafter]
  rw [hunnamed, hmetadata, hname] at hnamed
  refine ⟨fun key hkey => ?_, ?_, hnamed⟩
  · simp only [Fragment.identityKeys, List.mem_cons, List.not_mem_nil, or_false,
      not_or] at hkey
    obtain ⟨hkind, hversion, hdata⟩ := hkey
    rw [hothers key hdata, hbefore,
      Fragment.field?_put_of_ne (Ne.symm hversion),
      Fragment.field?_put_of_ne (Ne.symm hkind), ← hbefore, htouched, hname]
  · rw [hothers "apiVersion" (by decide), Option.map_eq_none_iff, hlacks]

end

end Enrichment

end Fragments
