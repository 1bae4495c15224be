import Fragments.Proofs.Data.Entries
import Fragments.Proofs.Data.Parts
import Fragments.Proofs.Json.Layout

namespace Fragments.Json

mutual

/-- Whether no object in the tree repeats a key. -/
def DistinctKeys : Json → Prop
  | array items => AllDistinctKeys items
  | object entries => (entries.map Prod.fst).Nodup ∧ FieldsDistinctKeys entries
  | _ => True

def AllDistinctKeys : List Json → Prop
  | [] => True
  | item :: rest => DistinctKeys item ∧ AllDistinctKeys rest

def FieldsDistinctKeys : List (String × Json) → Prop
  | [] => True
  | (_, value) :: rest => DistinctKeys value ∧ FieldsDistinctKeys rest

end

theorem allDistinctKeys_iff {items : List Json} :
    AllDistinctKeys items ↔ ∀ item ∈ items, item.DistinctKeys := by
  induction items with
  | nil => simp [AllDistinctKeys]
  | cons item rest ih => simp [AllDistinctKeys, ih]

theorem fieldsDistinctKeys_iff {entries : List (String × Json)} :
    FieldsDistinctKeys entries ↔ ∀ entry ∈ entries, entry.2.DistinctKeys := by
  induction entries with
  | nil => simp [FieldsDistinctKeys]
  | cons entry rest ih => simp [FieldsDistinctKeys, ih]

theorem distinctKeys_array_iff {items : List Json} :
    (array items).DistinctKeys ↔ ∀ item ∈ items, item.DistinctKeys :=
  allDistinctKeys_iff

theorem distinctKeys_object_iff {entries : List (String × Json)} :
    (object entries).DistinctKeys ↔
      (entries.map Prod.fst).Nodup ∧ ∀ entry ∈ entries, entry.2.DistinctKeys :=
  and_congr_right fun _ => fieldsDistinctKeys_iff

mutual

/-- How many values lie in each other, the value itself being the first. -/
def height : Json → Nat
  | array items => heightOfItems items + 1
  | object entries => heightOfFields entries + 1
  | _ => 1

def heightOfItems : List Json → Nat
  | [] => 0
  | item :: rest => max (height item) (heightOfItems rest)

def heightOfFields : List (String × Json) → Nat
  | [] => 0
  | (_, value) :: rest => max (height value) (heightOfFields rest)

end

theorem heightOfItems_le_iff {items : List Json} {levels : Nat} :
    heightOfItems items ≤ levels ↔ ∀ item ∈ items, item.height ≤ levels := by
  induction items with
  | nil => simp [heightOfItems]
  | cons item rest ih =>
      rw [heightOfItems, Nat.max_le, ih, List.forall_mem_cons]

theorem heightOfFields_le_iff {entries : List (String × Json)} {levels : Nat} :
    heightOfFields entries ≤ levels ↔
      ∀ entry ∈ entries, entry.2.height ≤ levels := by
  induction entries with
  | nil => simp [heightOfFields]
  | cons entry rest ih =>
      rw [heightOfFields, Nat.max_le, ih, List.forall_mem_cons]

theorem mem_of_mem_uniqueEntries {entries : List (String × Json)}
    {entry : String × Json} (hmem : entry ∈ uniqueEntries entries) :
    entry ∈ entries := by
  have hget := Entries.get?_eq_some_of_mem (Entries.nodup_ofPairs entries) hmem
  rw [Entries.get?_ofPairs] at hget
  exact List.mem_reverse.mp (Entries.mem_of_get?_eq_some hget)

/-- Wherever the value stands, its text is read as the value and nothing after
it is touched. -/
def ReadsBack (value : Json) : Prop :=
  ∀ depth fuel levels rest, value.height ≤ levels → EndsValue rest →
    (layAt depth value).toList.length ≤ fuel →
      readValue fuel levels ((layAt depth value).toList ++ rest) =
        .ok (value, rest)

section

variable {depth fuel levels : Nat} {rest : List Char}

private theorem exists_succ {size : Nat} (hfuel : size ≤ fuel)
    (hsize : 0 < size) :
    ∃ fewer, fuel = fewer + 1 :=
  Nat.exists_eq_succ_of_ne_zero (Nat.ne_of_gt (Nat.lt_of_lt_of_le hsize hfuel))

theorem readsBack_atom {value : Json}
    (hatom : ∀ depth rest, EndsValue rest →
      readAtom ((layAt depth value).toList ++ rest) = .ok (value, rest)) :
      ReadsBack value := by
  intro depth fuel levels rest _ hrest hfuel
  have hpos : 0 < (layAt depth value).toList.length := by
    rw [List.length_pos_iff]
    intro hempty
    have hread := hatom depth [] endsValue_nil
    rw [hempty] at hread
    cases hread
  obtain ⟨fuel, rfl⟩ := exists_succ hfuel hpos
  exact readValue_readAtom (hatom depth rest hrest)

theorem skipSpace_entry {value : Json} (hvalue : ReadsBack value)
    (hrest : EndsValue rest) :
    skipSpace ((newline depth).toList ++ ((layAt depth value).toList ++ rest)) =
      (layAt depth value).toList ++ rest := by
  rw [skipSpace_newline]
  exact skipSpace_of_readValue
    (hvalue depth _ _ rest (Nat.le_refl _) hrest (Nat.le_refl _))

theorem layAt_append_ne_closing {value : Json} (hvalue : ReadsBack value)
    (hrest : EndsValue rest) (tail : List Char) :
    (layAt depth value).toList ++ rest ≠ ']' :: tail := by
  have hread := hvalue depth _ _ rest (Nat.le_refl _) hrest (Nat.le_refl _)
  obtain ⟨c, more, hstart, -, hne, -⟩ := readValue_starts hread
  rw [hstart]
  exact fun heq => hne (List.cons.inj heq).1

theorem readItems_layItems (item : Json) (items : List Json)
    (hitems : ∀ other ∈ item :: items, ReadsBack other)
    (hheight : ∀ other ∈ item :: items, other.height ≤ levels)
    (hfuel : (layAt (depth + 1) item).toList.length +
      (afterEntry "]" depth (layItems (depth + 1) items)).length ≤ fuel) :
    readItems fuel levels ((layAt (depth + 1) item).toList ++
        (afterEntry "]" depth (layItems (depth + 1) items) ++ rest)) =
      .ok (item :: items, rest) := by
  induction items generalizing item fuel with
  | nil =>
      have hafter := length_afterEntry_nil "]" depth
      rw [layItems] at hfuel ⊢
      obtain ⟨fuel, rfl⟩ := exists_succ hfuel (Nat.add_pos_right _ hafter)
      exact readItems_last
        (hitems item List.mem_cons_self _ fuel _ _
          (hheight item List.mem_cons_self) (endsValue_afterEntry _ _ _ _)
          (by omega))
        (skipSpace_afterEntry_nil rfl rfl depth rest)
  | cons next items ih =>
      have hnext := hitems next (List.mem_cons_of_mem _ List.mem_cons_self)
      rw [layItems] at hfuel ⊢
      rw [afterEntry, List.length_cons, List.length_append, List.length_append]
        at hfuel
      obtain ⟨fuel, rfl⟩ := exists_succ hfuel (by omega)
      refine readItems_more
        (hitems item List.mem_cons_self _ fuel _ _
          (hheight item List.mem_cons_self) (endsValue_afterEntry _ _ _ _)
          (by omega))
        (skipSpace_afterEntry_cons ..) ?_
      rw [skipSpace_entry hnext (endsValue_afterEntry _ _ _ _)]
      exact ih next (fun other hmem =>
        hitems other (List.mem_cons_of_mem _ hmem))
        (fun other hmem => hheight other (List.mem_cons_of_mem _ hmem))
          (by omega)

theorem readsBack_array {items : List Json}
    (hitems : ∀ item ∈ items, ReadsBack item) :
    ReadsBack (.array items) := by
  intro depth fuel levels rest hheight hrest hfuel
  rw [height] at hheight
  have hlevels : levels ≠ 0 := by omega
  cases items with
  | nil =>
      rw [layAt, layItems, layOut_nil] at hfuel ⊢
      obtain ⟨fuel, rfl⟩ := exists_succ hfuel (by decide)
      exact below_eq_ok_iff.mpr ⟨hlevels, rfl⟩
  | cons item items =>
      rw [layAt, layItems] at hfuel ⊢
      have hlength :=
        length_layOut_cons (show "[".toList = ['['] from rfl) "]" depth
          (layAt (depth + 1) item) (layItems (depth + 1) items)
      obtain ⟨fuel, rfl⟩ := exists_succ hfuel (Nat.zero_lt_of_lt hlength)
      rw [toList_layOut_cons rfl]
      have hitem := hitems item List.mem_cons_self
      have hafter :=
        endsValue_afterEntry "]" depth (layItems (depth + 1) items) rest
      refine readValue_array hlevels ?_ ?_
      · rw [skipSpace_entry hitem hafter]
        exact layAt_append_ne_closing hitem hafter
      · rw [skipSpace_entry hitem hafter]
        exact readItems_layItems item items hitems
          (heightOfItems_le_iff.mp (by omega)) (by omega)

theorem toList_field (key written : String) (rest : List Char) :
    (writeString key ++ ": " ++ written).toList ++ rest =
      (writeString key).toList ++ (':' :: ' ' :: (written.toList ++ rest)) := by
  simp only [String.toList_append, List.append_assoc]
  rfl

theorem length_field (key written : String) :
    written.toList.length <
      (writeString key ++ ": " ++ written).toList.length := by
  have hcolon : ": ".toList.length = 2 := rfl
  simp only [String.toList_append, List.length_append, hcolon]
  omega

theorem head?_field (key written : String) (rest : List Char) :
    ((writeString key ++ ": " ++ written).toList ++ rest).head? = some '"' := by
  rw [toList_field]
  exact head?_writeString key _

theorem readString_field (key written : String) (rest : List Char) :
    readString ((writeString key ++ ": " ++ written).toList ++ rest) =
      .ok (key, ':' :: ' ' :: (written.toList ++ rest)) := by
  rw [toList_field]
  exact readString_writeString key _

theorem readValue_afterColon {value : Json} (hvalue : ReadsBack value)
    (hheight : value.height ≤ levels) (hrest : EndsValue rest)
    (hfuel : (layAt depth value).toList.length ≤ fuel) :
    readValue fuel levels
      (skipSpace (' ' :: ((layAt depth value).toList ++ rest))) =
      .ok (value, rest) := by
  have hread := hvalue depth fuel levels rest hheight hrest hfuel
  exact (congrArg (readValue fuel levels) (skipSpace_of_readValue hread)).trans
    hread

theorem readFields_layFields (key : String) (value : Json)
    (entries : List (String × Json))
    (hvalues : ∀ entry ∈ (key, value) :: entries, ReadsBack entry.2)
    (hheight : ∀ entry ∈ (key, value) :: entries, entry.2.height ≤ levels)
    (hfuel : (writeString key ++ ": " ++
      layAt (depth + 1) value).toList.length +
      (afterEntry "\x7d" depth (layFields (depth + 1) entries)).length ≤ fuel) :
    readFields fuel levels
      ((writeString key ++ ": " ++ layAt (depth + 1) value).toList ++
        (afterEntry "\x7d" depth (layFields (depth + 1) entries) ++ rest)) =
      .ok ((key, value) :: entries, rest) := by
  induction entries generalizing key value fuel with
  | nil =>
      have hlength := length_field key (layAt (depth + 1) value)
      rw [layFields] at hfuel ⊢
      obtain ⟨fuel, rfl⟩ := exists_succ hfuel (by omega)
      have hbound : (layAt (depth + 1) value).toList.length ≤ fuel := by omega
      have hvalue := readValue_afterColon (hvalues _ List.mem_cons_self)
        (hheight _ List.mem_cons_self)
        (endsValue_afterEntry "\x7d" depth [] rest) hbound
      exact readFields_last (head?_field _ _ _)
        (readString_field _ _ _) rfl hvalue
          (skipSpace_afterEntry_nil rfl rfl depth rest)
  | cons next entries ih =>
      obtain ⟨nextKey, nextValue⟩ := next
      have hlength := length_field key (layAt (depth + 1) value)
      rw [layFields] at hfuel ⊢
      obtain ⟨fuel, rfl⟩ := exists_succ hfuel (by omega)
      have hbound : (layAt (depth + 1) value).toList.length ≤ fuel := by omega
      have hvalue := readValue_afterColon (hvalues _ List.mem_cons_self)
        (hheight _ List.mem_cons_self)
        (endsValue_afterEntry "\x7d" depth
          ((writeString nextKey ++ ": " ++ layAt (depth + 1) nextValue) ::
            layFields (depth + 1) entries) rest) hbound
      refine readFields_more (head?_field _ _ _)
        (readString_field _ _ _) rfl hvalue (skipSpace_afterEntry_cons ..) ?_
      rw [skipSpace_newline, skipSpace_of_quote (head?_field _ _ _)]
      rw [afterEntry, List.length_cons, List.length_append, List.length_append]
        at hfuel
      exact ih nextKey nextValue
        (fun entry hmem => hvalues entry (List.mem_cons_of_mem _ hmem))
        (fun entry hmem => hheight entry (List.mem_cons_of_mem _ hmem))
        (by omega)

theorem readsBack_object {entries : List (String × Json)}
    (hnodup : (entries.map Prod.fst).Nodup)
    (hvalues : ∀ entry ∈ entries, ReadsBack entry.2) :
    ReadsBack (.object entries) := by
  intro depth fuel levels rest hheight hrest hfuel
  rw [height] at hheight
  have hlevels : levels ≠ 0 := by omega
  cases entries with
  | nil =>
      rw [layAt, layFields, layOut_nil] at hfuel ⊢
      obtain ⟨fuel, rfl⟩ := exists_succ hfuel (by decide)
      exact below_eq_ok_iff.mpr ⟨hlevels, rfl⟩
  | cons entry entries =>
      obtain ⟨key, value⟩ := entry
      rw [layAt, layFields] at hfuel ⊢
      have hlength :=
        length_layOut_cons (show "\x7b".toList = ['\x7b'] from rfl) "\x7d" depth
          (writeString key ++ ": " ++ layAt (depth + 1) value)
          (layFields (depth + 1) entries)
      obtain ⟨fuel, rfl⟩ := exists_succ hfuel (Nat.zero_lt_of_lt hlength)
      have hunique : uniqueEntries ((key, value) :: entries) =
          (key, value) :: entries :=
        Entries.ofPairs_of_nodup hnodup
      rw [toList_layOut_cons rfl, ← congrArg Json.object hunique]
      have hskip := (skipSpace_newline (depth + 1) _).trans
        (skipSpace_of_quote (head?_field key (layAt (depth + 1) value)
          (afterEntry "\x7d" depth (layFields (depth + 1) entries) ++ rest)))
      refine readValue_object hlevels ?_ ?_
      · intro tail heq
        have hhead := head?_field key (layAt (depth + 1) value)
          (afterEntry "\x7d" depth (layFields (depth + 1) entries) ++ rest)
        rw [← hskip, heq] at hhead
        cases hhead
      · rw [hskip]
        exact readFields_layFields key value entries hvalues
          (heightOfFields_le_iff.mp (by omega)) (by omega)

end

theorem readsBack_constant (word : String) {value : Json}
    (hword : (word, value) ∈ constants)
    (htext : ∀ depth, layAt depth value = word) : ReadsBack value :=
  readsBack_atom fun depth rest _ => by
    rw [htext depth]
    exact readAtom_constant hword rest

theorem readsBack_bool (value : Bool) : ReadsBack (.bool value) := by
  cases value with
  | false => exact readsBack_constant "false" (by simp [constants]) fun _ => rfl
  | true => exact readsBack_constant "true" (by simp [constants]) fun _ => rfl

theorem readsBack_int {n : Int} (hfits : (Json.int n).fits = true) :
    ReadsBack (.int n) :=
  readsBack_atom fun _ _ hrest =>
    readAtom_number (readNumber?_int (of_decide_eq_true hfits) hrest.endsNumber)

theorem readsBack_float (value : Binary64) : ReadsBack (.float value) := by
  cases value with
  | nan => exact readsBack_constant "NaN" (by simp [constants]) fun _ => rfl
  | infinite negative =>
      cases negative with
      | false =>
          exact readsBack_constant "Infinity" (by simp [constants]) fun _ => rfl
      | true =>
          exact readsBack_constant "-Infinity" (by simp [constants])
            fun _ => rfl
  | finite negative position =>
      exact readsBack_atom fun _ _ hrest =>
        readAtom_number (readNumber?_float negative position hrest.endsNumber)

theorem readsBack_text (content : String) : ReadsBack (.text content) := by
  intro depth fuel levels rest _ _ hfuel
  rw [layAt] at hfuel ⊢
  have hpos : 0 < (writeString content).toList.length := by
    rw [toList_writeString]
    exact Nat.zero_lt_succ _
  obtain ⟨fuel, rfl⟩ := exists_succ hfuel hpos
  exact readValue_string (head?_writeString content rest)
    (readString_writeString content rest)

theorem readsBack (value : Json) (hkeys : DistinctKeys value)
    (hfits : value.fits = true) : ReadsBack value := by
  induction value using byParts with
  | null => exact readsBack_constant "null" (by simp [constants]) fun _ => rfl
  | bool value => exact readsBack_bool value
  | int value => exact readsBack_int hfits
  | float value => exact readsBack_float value
  | text value => exact readsBack_text value
  | array items ih =>
      refine readsBack_array fun item hmem => ih item hmem ?_ ?_
      · exact distinctKeys_array_iff.mp hkeys item hmem
      · exact fitAll_iff.mp hfits item hmem
  | object entries ih =>
      obtain ⟨hnodup, hvalues⟩ := distinctKeys_object_iff.mp hkeys
      exact readsBack_object hnodup fun entry hmem =>
        ih entry hmem (hvalues entry hmem) (fieldsFit_iff.mp hfits entry hmem)

theorem readValue_layAt {value : Json} (hkeys : DistinctKeys value)
    (hfits : value.fits = true) {fuel levels : Nat}
    (hheight : value.height ≤ levels)
    (hfuel : (layAt 0 value).toList.length ≤ fuel) :
    readValue fuel levels (layAt 0 value).toList = .ok (value, []) := by
  have hread := readsBack value hkeys hfits 0 fuel levels
    [] hheight endsValue_nil hfuel
  rw [List.append_nil] at hread
  exact hread

theorem write_eq_ok_iff {value : Json} {text : String} :
    write value = .ok text ↔ value.fits = true ∧ layAt 0 value = text := by
  unfold write
  split
  · next hfits => simp only [Except.ok.injEq, hfits, true_and]
  · next hfits => simp only [reduceCtorEq, hfits, false_and]

theorem read_write {value : Json} (hkeys : DistinctKeys value)
    (hheight : value.height ≤ nestingLimit) {text : String}
    (hwrite : write value = .ok text) : read text.toList = .ok value := by
  obtain ⟨hfits, rfl⟩ := write_eq_ok_iff.mp hwrite
  have hfuel : (layAt 0 value).toList.length ≤
      2 * (layAt 0 value).toList.length + 2 := by omega
  have hread := readValue_layAt hkeys hfits hheight hfuel
  obtain ⟨c, tail, hchars, -, -, hmark⟩ := readValue_starts hread
  have hhead : (layAt 0 value).toList.head? ≠ some (Char.ofNat 0xFEFF) := by
    rw [hchars]
    exact fun heq => hmark (Option.some.inj heq)
  rw [read, if_neg hhead, skipSpace_of_readValue hread, hread]
  rfl

end Fragments.Json
