import Fragments.Data.Display
import Fragments.Proofs.Data.Entries

namespace Fragments

namespace Value

mutual

def labels : Value → List Nat
  | scalar _ => []
  | list own items => own.toList ++ labelsOfItems items
  | mapping own entries => own.toList ++ labelsOfEntries entries
  | set own _ => own.toList
  | pair first second => labels first ++ labels second
  | back target => [target]

def labelsOfItems : List Value → List Nat
  | [] => []
  | item :: rest => labels item ++ labelsOfItems rest

def labelsOfEntries : List (Scalar × Value) → List Nat
  | [] => []
  | (_, value) :: rest => labels value ++ labelsOfEntries rest

end

theorem labels_subset_of_mem {entries : List (Scalar × Value)} {key : Scalar}
    {value : Value} (hmem : (key, value) ∈ entries) :
    value.labels ⊆ labelsOfEntries entries := by
  induction entries with
  | nil => cases hmem
  | cons entry rest ih =>
      obtain ⟨first, held⟩ := entry
      rcases List.mem_cons.mp hmem with heq | hrest
      · cases heq
        exact List.subset_append_left _ _
      · exact List.Subset.trans (ih hrest) (List.subset_append_right _ _)

def scalar? : Value → Option Scalar
  | scalar value => some value
  | _ => none

def outline (entries : List (Scalar × Value)) : List (Scalar × Option Scalar) :=
  entries.map fun entry => (entry.1, entry.2.scalar?)

theorem scalar?_changeLabelled (label : Nat)
    (change : List (Scalar × Value) → List (Scalar × Value)) (value : Value) :
    (value.changeLabelled label change).scalar? = value.scalar? := by
  cases value <;> rfl

theorem outline_changeLabelledEntries (label : Nat)
    (change : List (Scalar × Value) → List (Scalar × Value))
    (entries : List (Scalar × Value)) :
    outline (changeLabelledEntries label change entries) = outline entries := by
  induction entries with
  | nil => rfl
  | cons entry rest ih =>
      have ih := ih
      simp only [outline] at ih ⊢
      simp only [changeLabelledEntries, List.map_cons,
        scalar?_changeLabelled, ih]

theorem map_fst_outline (entries : List (Scalar × Value)) :
    (outline entries).map Prod.fst = entries.map Prod.fst := by
  simp [outline]

theorem scalar?_eq_some {value : Value} {held : Scalar}
    (hscalar : value.scalar? = some held) :
    value = scalar held := by
  cases value <;> simp_all [scalar?]

theorem field?_outline (entries : List (Scalar × Value)) (key : String) :
    Entries.get? (outline entries) (.text key) =
      (field? entries key).map scalar? := by
  unfold field?
  induction entries with
  | nil => rfl
  | cons entry rest ih =>
      simp only [outline, List.map_cons, Entries.get?] at ih ⊢
      split
      · rfl
      · exact ih

theorem field?_changeLabelledEntries (label : Nat)
    (change : List (Scalar × Value) → List (Scalar × Value))
    (entries : List (Scalar × Value)) (key : String) :
    field? (changeLabelledEntries label change entries) key =
      (field? entries key).map (changeLabelled label change) := by
  unfold field?
  induction entries with
  | nil => rfl
  | cons entry rest ih =>
      simp only [changeLabelledEntries, Entries.get?]
      split
      · rfl
      · exact ih

theorem present?_eq_none_iff {entries : List (Scalar × Value)} {key : String} :
    present? entries key = none ↔
      ∀ held, Entries.get? (outline entries) (.text key) = some held →
        held = some .null := by
  rw [field?_outline]
  unfold present?
  split
  · next hnull => simp [hnull, scalar?]
  · next other hother =>
      cases hfield : field? entries key with
      | none => simp
      | some value =>
          simp only [Option.map_some, Option.some.injEq, reduceCtorEq,
            forall_eq', false_iff]
          intro hnull
          exact hother (hfield.trans (congrArg some (scalar?_eq_some hnull)))

mutual

def Outlined (outlines : Nat → List (Scalar × Option Scalar)) : Value → Prop
  | scalar _ => True
  | list _ items => OutlinedItems outlines items
  | mapping own entries =>
      (∀ label, own = some label → outline entries = outlines label) ∧
        OutlinedEntries outlines entries
  | set _ _ => True
  | pair first second => Outlined outlines first ∧ Outlined outlines second
  | back _ => True

def OutlinedItems (outlines : Nat → List (Scalar × Option Scalar)) :
    List Value → Prop
  | [] => True
  | item :: rest => Outlined outlines item ∧ OutlinedItems outlines rest

def OutlinedEntries (outlines : Nat → List (Scalar × Option Scalar)) :
    List (Scalar × Value) → Prop
  | [] => True
  | (_, value) :: rest =>
      Outlined outlines value ∧ OutlinedEntries outlines rest

end

theorem OutlinedItems.map {outlines : Nat → List (Scalar × Option Scalar)}
    {items : List α} {shown : α → Value}
    (hshow : ∀ item, (shown item).Outlined outlines) :
    OutlinedItems outlines (items.map shown) := by
  induction items with
  | nil => trivial
  | cons item rest ih => exact ⟨hshow item, ih⟩

theorem OutlinedEntries.map {outlines : Nat → List (Scalar × Option Scalar)}
    {entries : List (Scalar × α)} {shown : Scalar × α → Value}
    (hshow : ∀ entry, (shown entry).Outlined outlines) :
    OutlinedEntries outlines
      (entries.map fun entry => (entry.1, shown entry)) := by
  induction entries with
  | nil => trivial
  | cons entry rest ih => exact ⟨hshow entry, ih⟩

theorem OutlinedEntries.of_mem {outlines : Nat → List (Scalar × Option Scalar)}
    {entries : List (Scalar × Value)}
    (hentries : OutlinedEntries outlines entries) {key : Scalar} {value : Value}
    (hmem : (key, value) ∈ entries) : value.Outlined outlines := by
  induction entries with
  | nil => cases hmem
  | cons entry rest ih =>
      rcases List.mem_cons.mp hmem with rfl | hrest
      · exact hentries.1
      · exact ih hentries.2 hrest

theorem mem_of_field?_eq_some {entries : List (Scalar × Value)} {key : String}
    {value : Value} (hfield : field? entries key = some value) :
    (.text key, value) ∈ entries :=
  Entries.mem_of_get?_eq_some hfield

theorem field?_of_present?_eq_some {entries : List (Scalar × Value)}
    {key : String} {value : Value}
    (hpresent : present? entries key = some value) :
    field? entries key = some value := by
  unfold present? at hpresent
  split at hpresent
  · cases hpresent
  · exact hpresent

@[simp] theorem field?_assign_self (key : String) (value : Value)
    (entries : List (Scalar × Value)) :
    field? (assign key value entries) key = some value :=
  Entries.get?_assign_self _ _ _

theorem field?_assign_of_ne {key other : String} (hne : key ≠ other)
    (value : Value) (entries : List (Scalar × Value)) :
    field? (assign key value entries) other = field? entries other :=
  Entries.get?_assign_of_ne (fun heq => hne (Scalar.text.inj heq)) _ _

theorem present?_assign_of_ne {key other : String} (hne : key ≠ other)
    (value : Value) (entries : List (Scalar × Value)) :
    present? (assign key value entries) other = present? entries other := by
  unfold present?
  rw [field?_assign_of_ne hne]

theorem assign_of_field?_eq {key : String} {value : Value}
    {entries : List (Scalar × Value)}
    (hfield : field? entries key = some value) :
    assign key value entries = entries :=
  Entries.assign_of_get?_eq hfield

theorem assign_assign (key : String) (first second : Value)
    (entries : List (Scalar × Value)) :
    assign key second (assign key first entries) = assign key second entries :=
  Entries.assign_assign _ _ _ _

end Value

namespace Fragment

/-- Whether no container of the fragment is mentioned in two places. -/
def IsTree (fragment : Fragment) : Prop := fragment.toValue.labels = []

/-- What is shared in a fragment is the same wherever it is mentioned: keys and
scalars of a mapping with a label are those of its outline, and the fragment
itself is mentioned by reference only. -/
structure Coherent (fragment : Fragment)
    (outlines : Nat → List (Scalar × Option Scalar)) : Prop where
  outlined : Value.OutlinedEntries outlines fragment.entries
  distinct : ∀ label, ((outlines label).map Prod.fst).Nodup
  apart : ∀ {key value label}, (key, value) ∈ fragment.entries →
    value.label? = some label → fragment.label ≠ some label

end Fragment

end Fragments
