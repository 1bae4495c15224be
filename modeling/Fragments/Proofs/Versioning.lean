import Fragments.Proofs.Resource.Keys
import Fragments.Resolver
import Mathlib.Data.List.Pairwise
import Mathlib.Data.List.Nodup

namespace Fragments

namespace Group

variable {group : Group} {kind : String}

theorem mem_all (group : Group) : group ∈ all := by
  cases group <;> decide

theorem eq_of_mem_kinds {one other : Group} (hone : kind ∈ one.kinds)
    (hother : kind ∈ other.kinds) :
    one = other := by
  have hnodup : (all.flatMap kinds).Nodup := by decide
  have hsymm : Std.Symm (Function.onFun List.Disjoint kinds) :=
    ⟨fun _ _ hapart => List.disjoint_symm hapart⟩
  by_contra hne
  exact (List.nodup_flatMap.mp hnodup).2.forall (mem_all one)
    (mem_all other) hne hone hother

/-- A group governs the kinds that it lists, and the core group those that no
group lists. -/
def Governs (group : Group) (kind : String) : Prop :=
  kind ∈ group.kinds ∨ group = core ∧ ∀ other : Group, kind ∉ other.kinds

theorem ofKind_of_mem (hmem : kind ∈ group.kinds) : ofKind kind = group := by
  unfold ofKind
  cases hfind : all.find? fun group => group.kinds.contains kind with
  | none =>
      have hnot := List.find?_eq_none.mp hfind group (mem_all group)
      exact absurd (List.contains_iff_mem.mpr hmem) hnot
  | some found =>
      have hfound : found.kinds.contains kind = true := by
        simpa using List.find?_some hfind
      exact eq_of_mem_kinds (List.contains_iff_mem.mp hfound) hmem

theorem ofKind_of_unlisted (hnone : ∀ group : Group, kind ∉ group.kinds) :
    ofKind kind = core := by
  have hfind : (all.find? fun group => group.kinds.contains kind) = none :=
    List.find?_eq_none.mpr fun group _ hcontains =>
      hnone group (List.contains_iff_mem.mp hcontains)
  rw [ofKind, hfind, Option.getD_none]

/-- The group that is found first is the only one that governs a kind. -/
theorem ofKind_eq_iff : ofKind kind = group ↔ group.Governs kind := by
  constructor
  · rintro rfl
    by_cases hlisted : ∃ group : Group, kind ∈ group.kinds
    · obtain ⟨group, hmem⟩ := hlisted
      exact .inl (ofKind_of_mem hmem ▸ hmem)
    · have hnone := not_exists.mp hlisted
      exact .inr ⟨ofKind_of_unlisted hnone, hnone⟩
  · rintro (hmem | ⟨rfl, hnone⟩)
    · exact ofKind_of_mem hmem
    · exact ofKind_of_unlisted hnone

instance : Decidable (group.Governs kind) := decidable_of_iff _ ofKind_eq_iff

theorem ofSetting?_setting (group : Group) :
    ofSetting? group.setting = some group := by
  cases group <;> rfl

end Group

theorem Scalar.same_text_iff {text : String} {key : Scalar} :
    key.same (.text text) = true ↔ key = .text text := by
  cases key <;> simp [same, integer?]

theorem Scalar.text_same_iff {text : String} {key : Scalar} :
    (Scalar.text text).same key = true ↔ key = .text text := by
  cases key <;> simp [same, integer?]
  exact eq_comm

namespace Value

variable {entries further : List (Scalar × Value)}

theorem field?_cons (key : Scalar) (value : Value)
    (rest : List (Scalar × Value)) (name : String) :
    field? ((key, value) :: rest) name = if key = .text name then some value
      else field? rest name := by
  simp [field?, Entries.get?]

theorem field?_assign_same (key : Scalar) (value : Value)
    (entries : List (Scalar × Value)) (name : String) :
    field? (Entries.assign Scalar.same key value entries) name =
      if key = .text name then some value else field? entries name := by
  induction entries with
  | nil => exact field?_cons key value [] name
  | cons entry rest ih =>
      obtain ⟨first, held⟩ := entry
      rw [Entries.assign, field?_cons first held]
      -- sameness may hold between different keys, but not when one of them is a
      -- text
      by_cases hsame : first.same key = true
      · rw [if_pos hsame, field?_cons]
        by_cases hkey : key = .text name
        · subst hkey
          rw [if_pos (Scalar.same_text_iff.mp hsame), if_pos rfl]
        · have hfirst : first ≠ .text name := by
            rintro rfl
            exact hkey (Scalar.text_same_iff.mp hsame)
          rw [if_neg hfirst, if_neg hkey, if_neg hfirst]
      · rw [if_neg hsame, field?_cons, ih]
        by_cases hkey : key = .text name
        · subst hkey
          rw [if_neg (mt Scalar.same_text_iff.mpr hsame), if_pos rfl,
            if_pos rfl]
        · rw [if_neg hkey, if_neg hkey]

theorem field?_eq_none_of_same {key : Scalar} {name : String}
    (hkey : key = .text name)
    (hapart : ∀ entry ∈ entries, key.same entry.1 = false) :
    field? entries name = none := by
  subst hkey
  refine Entries.get?_eq_none_iff.mpr fun hmem => ?_
  obtain ⟨entry, hentry, heq⟩ := List.mem_map.mp hmem
  have hsame := Scalar.text_same_iff.mpr heq
  rw [hapart entry hentry] at hsame
  cases hsame

theorem field?_update (hdictionary : IsDictionary further)
    (entries : List (Scalar × Value)) (name : String) :
    field? (update entries further) name =
      (field? further name).or (field? entries name) := by
  unfold update
  induction further generalizing entries with
  | nil => rfl
  | cons entry rest ih =>
      obtain ⟨key, value⟩ := entry
      obtain ⟨hapart, hrest⟩ := List.pairwise_cons.mp hdictionary
      rw [List.foldl_cons, ih hrest, field?_assign_same, field?_cons]
      split
      · next hkey =>
          rw [field?_eq_none_of_same hkey hapart, Option.none_or,
            Option.some_or]
      · rfl

theorem isDictionary_assign (hdictionary : IsDictionary entries) (key : Scalar)
    (value : Value) :
    IsDictionary (Entries.assign Scalar.same key value entries) := by
  induction entries with
  | nil => exact List.pairwise_singleton _ _
  | cons entry rest ih =>
      obtain ⟨hapart, hrest⟩ := List.pairwise_cons.mp hdictionary
      rw [Entries.assign]
      split
      · exact List.pairwise_cons.mpr ⟨hapart, hrest⟩
      · next hother =>
          refine List.pairwise_cons.mpr ⟨fun later hlater => ?_, ih hrest⟩
          rcases Entries.mem_map_fst_assign (List.mem_map_of_mem hlater) with
            hheld | hnew
          · obtain ⟨held, hmem, heq⟩ := List.mem_map.mp hheld
            exact heq ▸ hapart held hmem
          · exact hnew ▸ Bool.eq_false_iff.mpr hother

theorem isDictionary_update (hdictionary : IsDictionary entries)
    (further : List (Scalar × Value)) :
    IsDictionary (update entries further) := by
  unfold update
  induction further generalizing entries with
  | nil => exact hdictionary
  | cons entry rest ih =>
      exact ih (isDictionary_assign hdictionary entry.1 entry.2)

end Value

namespace Versioning

variable {first second further : List (Scalar × Value)}

theorem forKind_eq (versioning : Versioning) (kind : String) :
    versioning.forKind kind = (Value.field? versioning.overrides kind).getD
      (.text (versioning.version (Group.ofKind kind))) := by
  unfold forKind
  cases Value.field? versioning.overrides kind <;> rfl

theorem overrides_withOverrides (versioning : Versioning)
    (further : List (Scalar × Value)) :
    (versioning.withOverrides further).overrides =
      Value.update versioning.overrides further := rfl

theorem forKind?_withOverrides (versioning : Versioning)
    (hfurther : Value.IsDictionary further) (kind : Option String) :
    (versioning.withOverrides further).forKind? kind =
      (kind.bind (Value.field? further)).getD (versioning.forKind? kind) := by
  cases kind with
  | none => rfl
  | some kind =>
      simp only [forKind?, Option.bind_some]
      rw [forKind_eq, overrides_withOverrides, Value.field?_update hfurther,
        forKind_eq]
      cases Value.field? further kind <;> rfl

/-- Two maps of overrides, one after the other, are answered by as the first
updated by the second. -/
theorem forKind?_withOverrides_withOverrides (versioning : Versioning)
    (hfirst : Value.IsDictionary first) (hsecond : Value.IsDictionary second)
    (kind : Option String) :
    ((versioning.withOverrides first).withOverrides second).forKind? kind =
      (versioning.withOverrides (Value.update first second)).forKind? kind := by
  rw [forKind?_withOverrides _ hsecond, forKind?_withOverrides _ hfirst,
    forKind?_withOverrides _ (Value.isDictionary_update hfirst second)]
  cases kind with
  | none => rfl
  | some kind =>
      simp only [Option.bind_some]
      rw [Value.field?_update hsecond]
      cases Value.field? second kind <;> rfl

def fieldsOf (settings : Settings) : List (Scalar × Value) :=
  Group.all.map fun group =>
    (.text group.setting, .text (settings.version group))

theorem filter_fieldNames :
    (fieldNames.filter fun name => name.endsWith "_version") =
      Group.all.map Group.setting := by
  decide +kernel

theorem mapM_fieldOfSetting (settings : Settings) (groups : List Group) :
    (groups.map Group.setting).mapM (fieldOfSetting settings) =
      .ok (groups.map fun group =>
        (.text group.setting, .text (settings.version group))) := by
  induction groups with
  | nil => rfl
  | cons group rest ih =>
      rw [List.map_cons, List.mapM_cons, ih, fieldOfSetting,
        Group.ofSetting?_setting]
      rfl

theorem field?_fieldsOf (settings : Settings) (group : Group) :
    Value.field? (fieldsOf settings) group.setting =
      some (.text (settings.version group)) := by
  have hnodup :
      (Group.all.map fun group => Scalar.text group.setting).Nodup := by decide
  refine Entries.get?_eq_some_of_mem ?_
    (List.mem_map_of_mem (Group.mem_all group))
  rwa [fieldsOf, List.map_map]

theorem field?_fieldsOf_overrides (settings : Settings) :
    Value.field? (fieldsOf settings) "overrides" = none := by
  have hnot : Scalar.text "overrides" ∉ Group.all.map fun group =>
    Scalar.text group.setting := by
    decide
  refine Entries.get?_eq_none_iff.mpr ?_
  rwa [fieldsOf, List.map_map]

theorem ofFields_fieldsOf (settings : Settings) :
    ofFields (fieldsOf settings) = .ok settings.versioning := by
  have hversions : versionComplaints (fieldsOf settings) = [] :=
    List.filterMap_eq_nil_iff.mpr fun group _ => by
      simp [field?_fieldsOf, isText, Value.text]
  have hoverrides : overrideComplaints (fieldsOf settings) = [] := by
    simp [overrideComplaints, field?_fieldsOf_overrides]
  simp only [ofFields, hversions, hoverrides, field?_fieldsOf,
    field?_fieldsOf_overrides, List.append_nil, Value.text]
  rfl

/-- Copying the versions by their names brings every one of them to its own
group. -/
theorem ofSettings_eq (settings : Settings) :
    ofSettings settings = .ok settings.versioning := by
  simp only [ofSettings, filter_fieldNames, mapM_fieldOfSetting]
  exact ofFields_fieldsOf settings

theorem forKind_versioning (settings : Settings) (kind : String) :
    settings.versioning.forKind kind =
      .text (settings.version (Group.ofKind kind)) := rfl

end Versioning

end Fragments
