import Fragments.Json.Tree

namespace Fragments

namespace Json

/-- What holds of all but arrays and objects, and passes from the parts of one
to it, holds of every document. -/
@[elab_as_elim]
theorem byParts {motive : Json → Prop} (null : motive .null)
    (bool : ∀ value, motive (.bool value)) (int : ∀ value, motive (.int value))
    (float : ∀ value, motive (.float value))
    (text : ∀ value, motive (.text value))
    (array : ∀ items, (∀ item ∈ items, motive item) → motive (.array items))
    (object : ∀ entries, (∀ entry ∈ entries, motive entry.2) →
      motive (.object entries)) (value : Json) : motive value := by
  cases value with
  | null => exact null
  | bool value => exact bool value
  | int value => exact int value
  | float value => exact float value
  | text value => exact text value
  | array items =>
      exact array items fun item hmem =>
        byParts null bool int float text array object item
  | object entries =>
      exact object entries fun entry hmem =>
        byParts null bool int float text array object entry.2
termination_by sizeOf value
decreasing_by
  · have hsmaller := List.sizeOf_lt_of_mem hmem
    simp only [Json.array.sizeOf_spec]
    omega
  · have hsmaller := List.sizeOf_lt_of_mem hmem
    have hentry : sizeOf entry.2 < sizeOf entry := by
      cases entry
      simp only [Prod.mk.sizeOf_spec]
      omega
    simp only [Json.object.sizeOf_spec]
    omega

theorem fitAll_iff {items : List Json} :
    fitAll items = true ↔ ∀ item ∈ items, item.fits = true := by
  induction items with
  | nil => simp [fitAll]
  | cons item rest ih =>
      rw [fitAll, Bool.and_eq_true, ih, List.forall_mem_cons]

theorem fieldsFit_iff {fields : List (String × Json)} :
    fieldsFit fields = true ↔ ∀ field ∈ fields, field.2.fits = true := by
  induction fields with
  | nil => simp [fieldsFit]
  | cons field rest ih =>
      obtain ⟨key, value⟩ := field
      rw [fieldsFit, Bool.and_eq_true, ih, List.forall_mem_cons]

end Json

namespace Value

/-- What holds of scalars, sets and references, and passes from the parts of a
container to it, holds of every value. -/
@[elab_as_elim]
theorem byParts {motive : Value → Prop}
    (scalar : ∀ value, motive (.scalar value))
    (list : ∀ label items, (∀ item ∈ items, motive item) →
      motive (.list label items))
      (mapping : ∀ label entries, (∀ entry ∈ entries, motive entry.2) →
        motive (.mapping label entries))
    (set : ∀ label elements, motive (.set label elements))
    (pair : ∀ first second, motive first → motive second →
      motive (.pair first second))
    (back : ∀ label, motive (.back label)) (value : Value) : motive value := by
  cases value with
  | scalar value => exact scalar value
  | list label items =>
      exact list label items fun item hmem =>
        byParts scalar list mapping set pair back item
  | mapping label entries =>
      refine mapping label entries fun entry hmem => ?_
      exact byParts scalar list mapping set pair back entry.2
  | set label elements => exact set label elements
  | pair first second =>
      exact pair first second (byParts scalar list mapping set pair back first)
        (byParts scalar list mapping set pair back second)
  | back label => exact back label
termination_by sizeOf value
decreasing_by
  · have hsmaller := List.sizeOf_lt_of_mem hmem
    simp only [Value.list.sizeOf_spec]
    omega
  · have hsmaller := List.sizeOf_lt_of_mem hmem
    have hentry : sizeOf entry.2 < sizeOf entry := by
      cases entry
      simp only [Prod.mk.sizeOf_spec]
      omega
    simp only [Value.mapping.sizeOf_spec]
    omega
  · simp only [Value.pair.sizeOf_spec]
    omega
  · simp only [Value.pair.sizeOf_spec]
    omega

/-- A part of a value, with the number of containers around it. Of the entries
of a mapping only those are looked into that `enters` picks. -/
inductive Occurs (enters : List (Scalar × Value) → Scalar × Value → Prop) :
    Nat → Value → Value → Prop
  | here : Occurs enters 0 value value
  | item (hmem : item ∈ items) (hinside : Occurs enters depth part item) :
      Occurs enters (depth + 1) part (.list label items)
  | entry (henters : enters entries entry)
      (hinside : Occurs enters depth part entry.2) :
      Occurs enters (depth + 1) part (.mapping label entries)
  | first (hinside : Occurs enters depth part first) :
      Occurs enters (depth + 1) part (.pair first second)
  | second (hinside : Occurs enters depth part second) :
      Occurs enters (depth + 1) part (.pair first second)

variable {enters : List (Scalar × Value) → Scalar × Value → Prop}
  {holds : Nat → Value → Prop}

theorem forall_occurs_scalar_iff {value : Scalar} :
    (∀ depth part, Occurs enters depth part (.scalar value) →
      holds depth part) ↔
      holds 0 (.scalar value) := by
  refine ⟨fun hall => hall 0 _ .here, fun hown depth part hoccurs => ?_⟩
  cases hoccurs
  exact hown

theorem forall_occurs_set_iff {label : Option Nat} {elements : List Scalar} :
    (∀ depth part, Occurs enters depth part (.set label elements) →
      holds depth part) ↔
      holds 0 (.set label elements) := by
  refine ⟨fun hall => hall 0 _ .here, fun hown depth part hoccurs => ?_⟩
  cases hoccurs
  exact hown

theorem forall_occurs_back_iff {label : Nat} :
    (∀ depth part, Occurs enters depth part (.back label) → holds depth part) ↔
      holds 0 (.back label) := by
  refine ⟨fun hall => hall 0 _ .here, fun hown depth part hoccurs => ?_⟩
  cases hoccurs
  exact hown

theorem forall_occurs_list_iff {label : Option Nat} {items : List Value} :
    (∀ depth part, Occurs enters depth part (.list label items) →
      holds depth part) ↔
      holds 0 (.list label items) ∧ ∀ item ∈ items, ∀ depth part,
        Occurs enters depth part item → holds (depth + 1) part := by
  constructor
  · intro hall
    exact ⟨hall 0 _ .here, fun item hmem depth part hinside =>
      hall _ part (.item hmem hinside)⟩
  · rintro ⟨hown, hitems⟩ depth part hoccurs
    cases hoccurs with
    | here => exact hown
    | item hmem hinside => exact hitems _ hmem _ part hinside

theorem forall_occurs_mapping_iff {label : Option Nat}
    {entries : List (Scalar × Value)} :
    (∀ depth part, Occurs enters depth part (.mapping label entries) →
      holds depth part) ↔
      holds 0 (.mapping label entries) ∧ ∀ entry, enters entries entry →
        ∀ depth part, Occurs enters depth part entry.2 →
          holds (depth + 1) part := by
  constructor
  · intro hall
    exact ⟨hall 0 _ .here,
      fun entry henters depth part hinside =>
        hall _ part (.entry henters hinside)⟩
  · rintro ⟨hown, hentries⟩ depth part hoccurs
    cases hoccurs with
    | here => exact hown
    | entry henters hinside => exact hentries _ henters _ part hinside

theorem forall_occurs_pair_iff {first second : Value} :
    (∀ depth part, Occurs enters depth part (.pair first second) →
      holds depth part) ↔
      holds 0 (.pair first second) ∧
        (∀ depth part, Occurs enters depth part first →
          holds (depth + 1) part) ∧
        ∀ depth part, Occurs enters depth part second →
          holds (depth + 1) part := by
  constructor
  · intro hall
    exact ⟨hall 0 _ .here, fun depth part hinside =>
      hall _ part (.first hinside), fun depth part hinside =>
        hall _ part (.second hinside)⟩
  · rintro ⟨hown, hfirst, hsecond⟩ depth part hoccurs
    cases hoccurs with
    | here => exact hown
    | first hinside => exact hfirst _ part hinside
    | second hinside => exact hsecond _ part hinside

end Value

end Fragments
