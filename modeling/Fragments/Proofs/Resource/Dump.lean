import Fragments.Proofs.Data.Outcome
import Fragments.Proofs.Data.Sharing
import Fragments.Resource
import Mathlib.Data.List.Nodup

namespace Fragments

namespace Resource

variable {levels : Nat} {json : Json}

theorem dumpLeaf_eq_ok_iff {value : Scalar} :
    dumpLeaf levels value = .ok json ↔
      levels ≠ 0 ∧ dumpScalar value = .ok json :=
  below_eq_ok_iff

theorem dumpIn_scalar_eq_ok_iff {value : Scalar} :
    dumpIn levels (.scalar value) = .ok json ↔
      levels ≠ 0 ∧ dumpScalar value = .ok json := by
  rw [dumpIn, dumpLeaf_eq_ok_iff]

theorem dumpIn_list_eq_ok_iff {own : Option Nat} {items : List Value} :
    dumpIn levels (.list own items) = .ok json ↔
      levels ≠ 0 ∧ ∃ dumped, dumpItems (levels - 1) items = .ok dumped ∧
        .array dumped = json := by
  rw [dumpIn, below_eq_ok_iff]
  simp only [bind_eq_ok_iff, Except.ok.injEq]

theorem dumpIn_mapping_eq_ok_iff {own : Option Nat}
    {entries : List (Scalar × Value)} :
    dumpIn levels (.mapping own entries) = .ok json ↔
      levels ≠ 0 ∧ ∃ dumped, dumpEntries (levels - 1) entries = .ok dumped ∧
        .object (Json.uniqueEntries dumped) = json := by
  rw [dumpIn, below_eq_ok_iff]
  simp only [bind_eq_ok_iff, Except.ok.injEq]

theorem dumpIn_set_eq_ok_iff {own : Option Nat} {elements : List Scalar} :
    dumpIn levels (.set own elements) = .ok json ↔
      levels ≠ 0 ∧ ∃ dumped,
        elements.mapM (dumpLeaf (levels - 1)) = .ok dumped ∧
        .array dumped = json := by
  rw [dumpIn, below_eq_ok_iff]
  simp only [bind_eq_ok_iff, Except.ok.injEq]

theorem dumpIn_pair_eq_ok_iff {first second : Value} :
    dumpIn levels (.pair first second) = .ok json ↔
      levels ≠ 0 ∧ ∃ a b, dumpIn (levels - 1) first = .ok a ∧
        dumpIn (levels - 1) second = .ok b ∧ .array [a, b] = json := by
  rw [dumpIn, below_eq_ok_iff]
  simp only [bind_eq_ok_iff, Except.ok.injEq, exists_and_left]

theorem ne_zero_of_dumpIn {value : Value}
    (hdump : dumpIn levels value = .ok json) :
    levels ≠ 0 := by
  cases value with
  | scalar _ => exact (dumpIn_scalar_eq_ok_iff.mp hdump).1
  | list _ _ => exact (dumpIn_list_eq_ok_iff.mp hdump).1
  | mapping _ _ => exact (dumpIn_mapping_eq_ok_iff.mp hdump).1
  | set _ _ => exact (dumpIn_set_eq_ok_iff.mp hdump).1
  | pair _ _ => exact (dumpIn_pair_eq_ok_iff.mp hdump).1
  | back _ => cases hdump

theorem dumpItems_cons_eq_ok_iff {levels : Nat} {item : Value}
    {rest : List Value} {dumped : List Json} :
    dumpItems levels (item :: rest) = .ok dumped ↔
      ∃ first more, dumpIn levels item = .ok first ∧
        dumpItems levels rest = .ok more ∧ first :: more = dumped := by
  rw [dumpItems]
  simp only [bind_eq_ok_iff, Except.ok.injEq, exists_and_left]

theorem dumpEntries_cons_eq_ok_iff {levels : Nat} {key : Scalar} {value : Value}
    {rest : List (Scalar × Value)} {dumped : List (String × Json)} :
    dumpEntries levels ((key, value) :: rest) = .ok dumped ↔
      ∃ text json more, dumpKey key = .ok text ∧
        dumpIn levels value = .ok json ∧ dumpEntries levels rest = .ok more ∧
          (text, json) :: more = dumped := by
  rw [dumpEntries]
  simp only [bind_eq_ok_iff, Except.ok.injEq, exists_and_left]

theorem mem_map_fst_dumpEntries {levels : Nat} {entries : List (Scalar × Value)}
    {dumped : List (String × Json)}
    (hdump : dumpEntries levels entries = .ok dumped) (text : String) :
    text ∈ dumped.map Prod.fst ↔
      ∃ entry ∈ entries, dumpKey entry.1 = .ok text := by
  induction entries generalizing dumped with
  | nil => cases hdump; simp
  | cons entry rest ih =>
      obtain ⟨own, json, more, hkey, -, hmore, rfl⟩ :=
        dumpEntries_cons_eq_ok_iff.mp hdump
      rw [List.map_cons, List.mem_cons, ih hmore,
        List.exists_mem_cons_iff, hkey, Except.ok.injEq, eq_comm]

def HasTextKeys (entries : List (Scalar × ν)) : Prop :=
  ∀ entry ∈ entries, ∃ text, entry.1 = .text text

theorem map_fst_dumpEntries {levels : Nat} {entries : List (Scalar × Value)}
    {dumped : List (String × Json)} (htexts : HasTextKeys entries)
    (hdump : dumpEntries levels entries = .ok dumped) :
    (dumped.map Prod.fst).map Scalar.text = entries.map Prod.fst := by
  induction entries generalizing dumped with
  | nil => cases hdump; rfl
  | cons entry rest ih =>
      obtain ⟨key, value⟩ := entry
      obtain ⟨own, json, more, hkey, -, hmore, rfl⟩ :=
        dumpEntries_cons_eq_ok_iff.mp hdump
      obtain ⟨text, htext⟩ := htexts _ List.mem_cons_self
      have htext : key = .text text := htext
      subst htext
      cases hkey
      simp only [List.map_cons,
        ih (fun entry hmem => htexts entry (List.mem_cons_of_mem _ hmem)) hmore]

theorem get?_dumpEntries {levels : Nat} {entries : List (Scalar × Value)}
    {dumped : List (String × Json)} (htexts : HasTextKeys entries)
    (hdump : dumpEntries levels entries = .ok dumped) (key : String) :
    (Entries.get? dumped key).map .ok = (Value.field? entries key).map
      (dumpIn levels) := by
  unfold Value.field?
  induction entries generalizing dumped with
  | nil => cases hdump; rfl
  | cons entry rest ih =>
      obtain ⟨own, value⟩ := entry
      obtain ⟨text, json, more, hkey, hvalue, hmore, rfl⟩ :=
        dumpEntries_cons_eq_ok_iff.mp hdump
      obtain ⟨written, htext⟩ := htexts _ List.mem_cons_self
      have htext : own = .text written := htext
      subst htext
      cases hkey
      by_cases heq : text = key
      · subst heq
        simp [hvalue]
      · have hne : Scalar.text text ≠ .text key := fun h =>
          heq (Scalar.text.inj h)
        rw [Entries.get?_cons_of_ne heq, Entries.get?_cons_of_ne hne,
          ih (fun entry hmem => htexts entry (List.mem_cons_of_mem _ hmem))
            hmore]

theorem uniqueEntries_dumpEntries {levels : Nat}
    {entries : List (Scalar × Value)} {dumped : List (String × Json)}
    (htexts : HasTextKeys entries) (hnodup : (entries.map Prod.fst).Nodup)
    (hdump : dumpEntries levels entries = .ok dumped) :
    Json.uniqueEntries dumped = dumped := by
  refine Entries.ofPairs_of_nodup (List.Nodup.of_map Scalar.text ?_)
  rwa [map_fst_dumpEntries htexts hdump]

theorem exists_dumpEntries_of_assign {levels : Nat} {key : String}
    {value : Value} {entries : List (Scalar × Value)}
    {dumped : List (String × Json)}
    (hdump : dumpEntries levels (Value.assign key value entries) = .ok dumped)
    (hheld : ∀ held, Value.field? entries key = some held → levels ≠ 0 →
      ∃ json, dumpIn levels held = .ok json) :
    ∃ json, dumpEntries levels entries = .ok json := by
  unfold Value.assign at hdump
  unfold Value.field? at hheld
  induction entries generalizing dumped with
  | nil => exact ⟨[], rfl⟩
  | cons entry rest ih =>
      obtain ⟨own, held⟩ := entry
      by_cases heq : own = .text key
      · subst heq
        simp only [Entries.assign, beq_self_eq_true, if_true] at hdump
        obtain ⟨text, _, more, hkey, hnew, hmore, -⟩ :=
          dumpEntries_cons_eq_ok_iff.mp hdump
        obtain ⟨json, hjson⟩ :=
          hheld held (Entries.get?_cons_self _ _ _) (ne_zero_of_dumpIn hnew)
        exact ⟨_, dumpEntries_cons_eq_ok_iff.mpr
          ⟨text, json, more, hkey, hjson, hmore, rfl⟩⟩
      · simp only [Entries.assign, beq_eq_false_iff_ne.mpr heq,
          Bool.false_eq_true, if_false] at hdump
        obtain ⟨text, json, more, hkey, hjson, hmore, -⟩ :=
          dumpEntries_cons_eq_ok_iff.mp hdump
        rw [Entries.get?_cons_of_ne heq] at hheld
        obtain ⟨dumpedRest, hrest⟩ := ih hmore hheld
        exact ⟨_, dumpEntries_cons_eq_ok_iff.mpr
          ⟨text, json, dumpedRest, hkey, hjson, hrest, rfl⟩⟩

end Resource

end Fragments
