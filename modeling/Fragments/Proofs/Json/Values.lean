import Fragments.Json.Tree
import Fragments.Proofs.Json.RoundTrip
import Mathlib.Order.MinMax

namespace Fragments

namespace Scalar

theorem same_text (a b : String) : same (text a) (text b) = (a == b) := by
  show (text a == text b) = (a == b)
  rw [Bool.eq_iff_iff, beq_iff_eq, beq_iff_eq, text.injEq]

end Scalar

namespace Json

theorem toFields_eq_map (entries : List (String × Json)) :
    toFields entries = entries.map fun entry =>
      (.text entry.1, entry.2.toValue) := by
  induction entries with
  | nil => rfl
  | cons entry rest ih => rw [toFields, ih, List.map_cons]

theorem field?_toFields (entries : List (String × Json)) (key : String) :
    Value.field? (toFields entries) key =
      (Entries.get? entries key).map toValue := by
  induction entries with
  | nil => rfl
  | cons entry rest ih =>
      obtain ⟨own, value⟩ := entry
      by_cases heq : own = key
      · subst heq
        rw [Entries.get?_cons_self, toFields, Value.field?,
          Entries.get?_cons_self]
        rfl
      · rw [Entries.get?_cons_of_ne heq, ← ih, toFields, Value.field?,
          Entries.get?_cons_of_ne fun h => heq (Scalar.text.inj h)]
        rfl

theorem present?_toFields {entries : List (String × Json)} {key : String}
    {value : Json} (hget : Entries.get? entries key = some value)
    (hvalue : value.toValue ≠ .null) :
    Value.present? (toFields entries) key = some value.toValue := by
  unfold Value.present?
  rw [field?_toFields, hget, Option.map_some]
  split
  · next heq => exact absurd (Option.some.inj heq) hvalue
  · rfl

theorem toFields_uniqueEntries (entries : List (String × Json)) :
    toFields (uniqueEntries entries) =
      Entries.ofPairs Scalar.same (toFields entries) := by
  rw [toFields_eq_map, toFields_eq_map,
    Entries.ofPairs_map Scalar.same_text toValue]
  rfl

mutual

theorem toValue_inj : ∀ {first second : Json}, first.toValue = second.toValue →
    first = second
  | .null, second, h => by cases second <;> cases h; rfl
  | .bool _, second, h => by cases second <;> cases h; rfl
  | .int _, second, h => by cases second <;> cases h; rfl
  | .float _, second, h => by cases second <;> cases h; rfl
  | .text _, second, h => by cases second <;> cases h; rfl
  | .array items, second, h => by
      cases second with
      | array others => exact congrArg array (toValues_inj (Value.list.inj h).2)
      | _ => cases h
  | .object entries, second, h => by
      cases second with
      | object others =>
          exact congrArg object (toFields_inj (Value.mapping.inj h).2)
      | _ => cases h

theorem toValues_inj : ∀ {items others : List Json},
    toValues items = toValues others →
    items = others
  | [], [], _ => rfl
  | [], _ :: _, h => by cases h
  | _ :: _, [], h => by cases h
  | item :: rest, other :: others, h => by
      obtain ⟨hitem, hrest⟩ := List.cons.inj h
      rw [toValue_inj hitem, toValues_inj hrest]

theorem toFields_inj : ∀ {entries others : List (String × Json)},
    toFields entries = toFields others → entries = others
  | [], [], _ => rfl
  | [], _ :: _, h => by cases h
  | _ :: _, [], h => by cases h
  | (key, value) :: rest, (other, held) :: others, h => by
      obtain ⟨hentry, hrest⟩ := List.cons.inj h
      obtain ⟨hkey, hvalue⟩ := Prod.mk.inj hentry
      rw [toValue_inj hvalue, toFields_inj hrest, Scalar.text.inj hkey]

end

mutual

/-- Data without repeated keys: the last value of a key, at its first place. -/
def merged : Json → Json
  | array items => array (mergedItems items)
  | object entries => object (uniqueEntries (mergedFields entries))
  | value => value

def mergedItems : List Json → List Json
  | [] => []
  | item :: rest => merged item :: mergedItems rest

def mergedFields : List (String × Json) → List (String × Json)
  | [] => []
  | (key, value) :: rest => (key, merged value) :: mergedFields rest

end

theorem length_mergedFields (entries : List (String × Json)) :
    (mergedFields entries).length = entries.length := by
  induction entries with
  | nil => rfl
  | cons entry rest ih =>
      rw [mergedFields, List.length_cons, List.length_cons, ih]

mutual

theorem merged_of_distinctKeys :
    ∀ {value : Json}, value.DistinctKeys → value.merged = value
  | null, _ => rfl
  | bool _, _ => rfl
  | int _, _ => rfl
  | float _, _ => rfl
  | text _, _ => rfl
  | array _, h => congrArg array (mergedItems_of_distinctKeys h)
  | object _, ⟨hnodup, hfields⟩ => by
      rw [merged, mergedFields_of_distinctKeys hfields, uniqueEntries,
        Entries.ofPairs_of_nodup hnodup]

theorem mergedItems_of_distinctKeys :
    ∀ {items : List Json}, AllDistinctKeys items →
    mergedItems items = items
  | [], _ => rfl
  | _ :: _, ⟨hitem, hrest⟩ =>
      congrArg₂ List.cons (merged_of_distinctKeys hitem)
        (mergedItems_of_distinctKeys hrest)

theorem mergedFields_of_distinctKeys : ∀ {entries : List (String × Json)},
    FieldsDistinctKeys entries → mergedFields entries = entries
  | [], _ => rfl
  | (_, _) :: _, ⟨hvalue, hrest⟩ =>
      congrArg₂ List.cons (Prod.ext rfl (merged_of_distinctKeys hvalue))
        (mergedFields_of_distinctKeys hrest)

end

mutual

theorem height_toValue : ∀ value : Json, value.toValue.height = value.height
  | null | bool _ | int _ | float _ | text _ => rfl
  | array items => congrArg (· + 1) (heightOfItems_toValues items)
  | object entries => congrArg (· + 1) (heightOfEntries_toFields entries)

theorem heightOfItems_toValues : ∀ items : List Json,
    Value.heightOfItems (toValues items) = heightOfItems items
  | [] => rfl
  | item :: rest =>
      congrArg₂ max (height_toValue item) (heightOfItems_toValues rest)

theorem heightOfEntries_toFields : ∀ entries : List (String × Json),
    Value.heightOfEntries (toFields entries) = heightOfFields entries
  | [] => rfl
  | (_, value) :: rest =>
      congrArg₂ max (height_toValue value) (heightOfEntries_toFields rest)

end

theorem heightOfFields_uniqueEntries_le (entries : List (String × Json)) :
    heightOfFields (uniqueEntries entries) ≤ heightOfFields entries :=
  heightOfFields_le_iff.mpr fun entry hmem =>
    heightOfFields_le_iff.mp (Nat.le_refl _) entry
      (mem_of_mem_uniqueEntries hmem)

mutual

theorem height_merged_le : ∀ value : Json, value.merged.height ≤ value.height
  | null | bool _ | int _ | float _ | text _ => Nat.le_refl _
  | array items => Nat.succ_le_succ (heightOfItems_mergedItems_le items)
  | object entries => Nat.succ_le_succ
      ((heightOfFields_uniqueEntries_le _).trans
        (heightOfFields_mergedFields_le entries))

theorem heightOfItems_mergedItems_le : ∀ items : List Json,
    heightOfItems (mergedItems items) ≤ heightOfItems items
  | [] => Nat.le_refl _
  | item :: rest =>
      max_le_max (height_merged_le item) (heightOfItems_mergedItems_le rest)

theorem heightOfFields_mergedFields_le : ∀ entries : List (String × Json),
    heightOfFields (mergedFields entries) ≤ heightOfFields entries
  | [] => Nat.le_refl _
  | (_, value) :: rest =>
      max_le_max (height_merged_le value) (heightOfFields_mergedFields_le rest)

end

end Json

end Fragments
