import Fragments.Data.Display
import Fragments.Proofs.Data.Outcome
import Fragments.Proofs.Data.Parts

namespace Fragments

namespace Scalar

theorem display_fails (value : Scalar) :
    FailsOnly (· = Number.tooLongToWrite) value.display := by
  cases value with
  | int value => exact .ite (.error rfl) (.ok _)
  | null | bool _ | float _ | text _ | bytes _ | date _ | moment _ =>
      exact .ok _

end Scalar

namespace Value

mutual

theorem displayIn_fails (lists : List Nat) :
    ∀ value : Value, FailsOnly (· = Number.tooLongToWrite)
    (value.displayIn lists)
  | scalar value => value.display_fails
  | list _ items => (displayItems_fails _ items).bind fun _ _ => .ok _
  | mapping _ entries => (displayEntries_fails _ entries).bind fun _ _ => .ok _
  | set _ elements => by
      refine .ite (.ok _)
        (FailsOnly.bind (fun problem hall => ?_) fun _ _ => .ok _)
      obtain ⟨_, element, _, _, -, -, helement⟩ := mapM_eq_error_iff.mp hall
      exact element.display_fails problem helement
  | pair first second =>
      (displayIn_fails _ first).bind fun _ _ => (displayIn_fails _ second).bind
        fun _ _ => .ok _
  | back _ => .ok _

theorem displayItems_fails (lists : List Nat) :
    ∀ items : List Value, FailsOnly (· = Number.tooLongToWrite)
    (displayItems lists items)
  | [] => .ok _
  | item :: rest =>
      (displayIn_fails _ item).bind fun _ _ => (displayItems_fails _ rest).bind
        fun _ _ => .ok _

theorem displayEntries_fails (lists : List Nat) :
    ∀ entries : List (Scalar × Value),
      FailsOnly (· = Number.tooLongToWrite) (displayEntries lists entries)
  | [] => .ok _
  | (key, value) :: rest =>
      key.display_fails.bind fun _ _ =>
        (displayIn_fails _ value).bind fun _ _ =>
          (displayEntries_fails _ rest).bind fun _ _ => .ok _

end

end Value

/-- Whether a scalar is an integer of too many digits. -/
def Scalar.IsLong (value : Scalar) : Prop :=
  ∃ n : Int, value = .int n ∧
    Number.digitLimit < (Nat.toDigits 10 n.natAbs).length

theorem Scalar.exists_display_iff {value : Scalar} :
    (∃ shown, value.display = .ok shown) ↔ ¬value.IsLong := by
  cases value with
  | int n =>
      rw [display, Number.writeInteger, IsLong]
      split
      · next hlong =>
          exact iff_of_false (fun ⟨_, hshown⟩ => by cases hshown)
            (not_not_intro ⟨n, rfl, hlong⟩)
      · next hshort =>
          refine iff_of_true ⟨_, rfl⟩ ?_
          rintro ⟨_, heq, hlong⟩
          cases heq
          exact hshort hlong
  | null | bool _ | float _ | text _ | bytes _ | date _ | moment _ =>
      refine iff_of_true ⟨_, rfl⟩ ?_
      rintro ⟨_, heq, -⟩
      cases heq

namespace Value

/-- A part that is an integer of too many digits, or has one for a key or an
element. -/
inductive Long : Value → Prop
  | integer (hlong : value.IsLong) : Long (.scalar value)
  | key (hmem : entry ∈ entries) (hlong : entry.1.IsLong) :
      Long (.mapping label entries)
  | element (hmem : element ∈ elements) (hlong : element.IsLong) :
      Long (.set label elements)

/-- Whether an integer of too many digits stands anywhere in a value. -/
def HasLong (value : Value) : Prop :=
  ∃ depth part, Occurs (fun entries entry => entry ∈ entries) depth part value ∧
    part.Long

theorem exists_displayItems_iff {lists : List Nat} {items : List Value} :
    (∃ shown, displayItems lists items = .ok shown) ↔
      ∀ item ∈ items, ∃ shown, item.displayIn lists = .ok shown := by
  induction items with
  | nil =>
      exact iff_of_true ⟨[], rfl⟩ (fun _ hmem => absurd hmem List.not_mem_nil)
  | cons item rest ih =>
      rw [List.forall_mem_cons, ← ih]
      simp only [displayItems, bind_eq_ok_iff]
      constructor
      · rintro ⟨_, first, hfirst, more, hmore, -⟩
        exact ⟨⟨first, hfirst⟩, more, hmore⟩
      · rintro ⟨⟨first, hfirst⟩, more, hmore⟩
        exact ⟨_, first, hfirst, more, hmore, rfl⟩

theorem exists_displayEntries_iff {lists : List Nat}
    {entries : List (Scalar × Value)} :
    (∃ shown, displayEntries lists entries = .ok shown) ↔
      ∀ entry ∈ entries, (∃ shown, entry.1.display = .ok shown) ∧
        ∃ shown, entry.2.displayIn lists = .ok shown := by
  induction entries with
  | nil =>
      exact iff_of_true ⟨[], rfl⟩ (fun _ hmem => absurd hmem List.not_mem_nil)
  | cons entry rest ih =>
      rw [List.forall_mem_cons, ← ih]
      simp only [displayEntries, bind_eq_ok_iff]
      constructor
      · rintro ⟨_, key, hkey, value, hvalue, more, hmore, -⟩
        exact ⟨⟨⟨key, hkey⟩, value, hvalue⟩, more, hmore⟩
      · rintro ⟨⟨⟨key, hkey⟩, value, hvalue⟩, more, hmore⟩
        exact ⟨_, key, hkey, value, hvalue, more, hmore, rfl⟩

theorem exists_displayIn_iff {lists : List Nat} {value : Value} :
    (∃ shown, value.displayIn lists = .ok shown) ↔
      ∀ depth part, Occurs (fun entries entry => entry ∈ entries) depth
        part value →
        ¬part.Long := by
  induction value using byParts generalizing lists with
  | scalar value =>
      rw [forall_occurs_scalar_iff, displayIn, Scalar.exists_display_iff]
      refine not_congr ⟨.integer, fun hpart => ?_⟩
      cases hpart with
      | integer hlong => exact hlong
  | list label items ih =>
      have hown : ¬(list label items).Long := nofun
      rw [forall_occurs_list_iff, and_iff_right hown, displayIn,
        exists_bind_ok_iff, exists_displayItems_iff]
      exact forall₂_congr fun item hmem => ih item hmem
  | mapping label entries ih =>
      have hown : ¬(mapping label entries).Long ↔
          ∀ entry ∈ entries, ¬entry.1.IsLong := by
        refine ⟨fun hlong entry hmem hkey => hlong (.key hmem hkey),
          fun hkeys hpart => ?_⟩
        cases hpart with
        | key hmem hlong => exact hkeys _ hmem hlong
      rw [forall_occurs_mapping_iff, hown, displayIn, exists_bind_ok_iff,
        exists_displayEntries_iff]
      simp only [forall_and, Scalar.exists_display_iff]
      exact and_congr_right' (forall₂_congr fun entry hmem => ih entry hmem)
  | set label elements =>
      have hown : ¬(set label elements).Long ↔
          ∀ element ∈ elements, ¬element.IsLong := by
        refine ⟨fun hlong element hmem helement =>
          hlong (.element hmem helement), fun helements hpart => ?_⟩
        cases hpart with
        | element hmem hlong => exact helements _ hmem hlong
      rw [forall_occurs_set_iff, hown, displayIn]
      cases elements with
      | nil =>
          exact iff_of_true ⟨_, rfl⟩ fun _ hmem => absurd hmem List.not_mem_nil
      | cons element rest =>
          rw [if_neg (by simp), exists_bind_ok_iff, exists_mapM_eq_ok_iff]
          simp only [Scalar.exists_display_iff]
  | pair first second ihFirst ihSecond =>
      have hown : ¬(pair first second).Long := nofun
      rw [forall_occurs_pair_iff,
        and_iff_right hown, ← @ihFirst lists, ← @ihSecond lists]
      simp only [displayIn, bind_eq_ok_iff]
      constructor
      · rintro ⟨_, one, hone, other, hother, -⟩
        exact ⟨⟨one, hone⟩, other, hother⟩
      · rintro ⟨⟨one, hone⟩, other, hother⟩
        exact ⟨_, one, hone, other, hother, rfl⟩
  | back label =>
      have hown : ¬(back label).Long := nofun
      exact iff_of_true ⟨_, rfl⟩ (forall_occurs_back_iff.mpr hown)

theorem exists_display_iff {value : Value} :
    (∃ shown, value.display = .ok shown) ↔ ¬value.HasLong := by
  rw [display, exists_displayIn_iff]
  simp only [HasLong, not_exists, not_and]

/-- A value can be shown unless an integer of too many digits stands in it. -/
theorem display_eq_tooLong_iff {value : Value} :
    value.display = .error Number.tooLongToWrite ↔ value.HasLong := by
  rw [← not_iff_not, ← exists_display_iff]
  cases hdisplay : value.display with
  | ok shown => exact iff_of_true nofun ⟨shown, rfl⟩
  | error fault =>
      obtain rfl : fault = Number.tooLongToWrite :=
        displayIn_fails [] value fault hdisplay
      exact iff_of_false (not_not_intro rfl) (fun ⟨_, heq⟩ => by cases heq)

end Value

end Fragments
