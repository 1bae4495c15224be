import Fragments.Data.Value
import Mathlib.Data.List.Perm.Subperm

namespace Fragments.Entries

section

variable [BEq κ] [LawfulBEq κ]

@[simp] theorem get?_cons_self (key : κ) (value : ν) (rest : List (κ × ν)) :
    get? ((key, value) :: rest) key = some value := by
  simp [get?]

theorem get?_cons_of_ne {key other : κ} (hne : key ≠ other) (value : ν)
    (rest : List (κ × ν)) :
    get? ((key, value) :: rest) other = get? rest other := by
  simp [get?, hne]

@[simp] theorem get?_assign_self (key : κ) (value : ν)
    (entries : List (κ × ν)) :
    get? (assign (· == ·) key value entries) key = some value := by
  induction entries with
  | nil => simp [assign]
  | cons entry rest ih =>
      obtain ⟨first, held⟩ := entry
      by_cases heq : first = key
      · simp [assign, heq]
      · simp only [assign, beq_eq_false_iff_ne.mpr heq,
          Bool.false_eq_true, if_false]
        rw [get?_cons_of_ne heq, ih]

theorem get?_assign_of_ne {key other : κ} (hne : key ≠ other) (value : ν)
    (entries : List (κ × ν)) :
    get? (assign (· == ·) key value entries) other = get? entries other := by
  induction entries with
  | nil => simp [assign, get?, hne]
  | cons entry rest ih =>
      obtain ⟨first, held⟩ := entry
      by_cases heq : first = key
      · subst heq
        simp [assign, get?, hne]
      · simp only [assign, beq_eq_false_iff_ne.mpr heq, Bool.false_eq_true,
          if_false, get?]
        rw [ih]

theorem get?_assign [DecidableEq κ] (key other : κ) (value : ν)
    (entries : List (κ × ν)) :
    get? (assign (· == ·) key value entries) other =
      if key = other then some value else get? entries other := by
  split
  · next heq => rw [← heq, get?_assign_self]
  · next hne => rw [get?_assign_of_ne hne]

theorem mem_of_get?_eq_some {key : κ} {value : ν} {entries : List (κ × ν)}
    (hget : get? entries key = some value) : (key, value) ∈ entries := by
  induction entries with
  | nil => cases hget
  | cons entry rest ih =>
      obtain ⟨first, held⟩ := entry
      by_cases heq : first = key
      · subst heq
        rw [get?_cons_self] at hget
        cases hget
        exact List.mem_cons_self
      · rw [get?_cons_of_ne heq] at hget
        exact List.mem_cons_of_mem _ (ih hget)

theorem assign_of_get?_eq {key : κ} {value : ν} {entries : List (κ × ν)}
    (hget : get? entries key = some value) :
    assign (· == ·) key value entries = entries := by
  induction entries with
  | nil => cases hget
  | cons entry rest ih =>
      obtain ⟨first, held⟩ := entry
      by_cases heq : first = key
      · subst heq
        rw [get?_cons_self] at hget
        cases hget
        simp [assign]
      · rw [get?_cons_of_ne heq] at hget
        simp only [assign, beq_eq_false_iff_ne.mpr heq,
          Bool.false_eq_true, if_false]
        rw [ih hget]

theorem assign_assign (key : κ) (first second : ν) (entries : List (κ × ν)) :
    assign (· == ·) key second (assign (· == ·) key first entries) =
      assign (· == ·) key second entries := by
  induction entries with
  | nil => simp [assign]
  | cons entry rest ih =>
      obtain ⟨own, held⟩ := entry
      by_cases heq : own = key
      · simp [assign, heq]
      · simp only [assign, beq_eq_false_iff_ne.mpr heq,
          Bool.false_eq_true, if_false]
        rw [ih]

theorem get?_append (early late : List (κ × ν)) (key : κ) :
    get? (early ++ late) key = (get? early key).or (get? late key) := by
  induction early with
  | nil => rfl
  | cons entry rest ih =>
      obtain ⟨first, held⟩ := entry
      by_cases heq : first = key
      · subst heq
        rw [List.cons_append, get?_cons_self, get?_cons_self, Option.some_or]
      · rw [List.cons_append, get?_cons_of_ne heq, get?_cons_of_ne heq, ih]

theorem get?_eq_none_iff {entries : List (κ × ν)} {key : κ} :
    get? entries key = none ↔ key ∉ entries.map Prod.fst := by
  induction entries with
  | nil => simp [get?]
  | cons entry rest ih =>
      obtain ⟨first, held⟩ := entry
      by_cases heq : first = key
      · simp [get?, heq]
      · rw [get?_cons_of_ne heq, ih]
        simp [Ne.symm heq]

theorem get?_eq_some_of_mem {entries : List (κ × ν)}
    (hnodup : (entries.map Prod.fst).Nodup) {key : κ} {value : ν}
    (hmem : (key, value) ∈ entries) : get? entries key = some value := by
  induction entries with
  | nil => cases hmem
  | cons entry rest ih =>
      rw [List.map_cons, List.nodup_cons] at hnodup
      rcases List.mem_cons.mp hmem with rfl | hrest
      · exact get?_cons_self key value rest
      · have hne : entry.1 ≠ key := fun heq =>
          hnodup.1 (heq ▸ List.mem_map_of_mem hrest)
        rw [show entry = (entry.1, entry.2) from rfl, get?_cons_of_ne hne,
          ih hnodup.2 hrest]

theorem get?_eq_of_perm {entries others : List (κ × ν)}
    (hnodup : (entries.map Prod.fst).Nodup) (hperm : entries.Perm others)
    (key : κ) : get? others key = get? entries key := by
  have hkeys := hperm.map Prod.fst
  cases hget : get? entries key with
  | none =>
      rw [get?_eq_none_iff] at hget ⊢
      exact mt hkeys.mem_iff.mpr hget
  | some value =>
      have hmem := hperm.mem_iff.mp (mem_of_get?_eq_some hget)
      exact get?_eq_some_of_mem (hkeys.nodup_iff.mp hnodup) hmem

theorem ext_of_get? {entries others : List (κ × ν)}
    (hnodup : (entries.map Prod.fst).Nodup)
    (hkeys : entries.map Prod.fst = others.map Prod.fst)
    (hget : ∀ key, get? entries key = get? others key) : entries = others := by
  induction entries generalizing others with
  | nil => exact (List.map_eq_nil_iff.mp hkeys.symm).symm
  | cons entry rest ih =>
      obtain ⟨key, value⟩ := entry
      cases others with
      | nil => cases hkeys
      | cons other tail =>
          obtain ⟨otherKey, otherValue⟩ := other
          simp only [List.map_cons, List.cons.injEq] at hkeys
          obtain ⟨rfl, hkeys⟩ := hkeys
          rw [List.map_cons, List.nodup_cons] at hnodup
          have hvalue := hget key
          rw [get?_cons_self, get?_cons_self] at hvalue
          cases hvalue
          rw [ih hnodup.2 hkeys]
          intro search
          by_cases heq : key = search
          · subst heq
            rw [get?_eq_none_iff.mpr hnodup.1,
              get?_eq_none_iff.mpr (hkeys ▸ hnodup.1)]
          · have hsearch := hget search
            rwa [get?_cons_of_ne heq, get?_cons_of_ne heq] at hsearch

omit [BEq κ] [LawfulBEq κ] in
theorem mem_map_fst_assign {same : κ → κ → Bool} {key other : κ} {value : ν}
    {entries : List (κ × ν)}
    (hmem : other ∈ (assign same key value entries).map Prod.fst) :
    other ∈ entries.map Prod.fst ∨ other = key := by
  induction entries with
  | nil => exact Or.inr (by simpa [assign] using hmem)
  | cons entry rest ih =>
      obtain ⟨first, held⟩ := entry
      unfold assign at hmem
      split at hmem
      · exact Or.inl hmem
      · rcases List.mem_cons.mp hmem with rfl | hrest
        · exact Or.inl List.mem_cons_self
        · exact (ih hrest).imp_left (List.mem_cons_of_mem _)

omit [BEq κ] [LawfulBEq κ] in
theorem nodup_assign {same : κ → κ → Bool}
    (hsame : ∀ key, same key key = true) {key : κ} {value : ν}
    {entries : List (κ × ν)} (hnodup : (entries.map Prod.fst).Nodup) :
    ((assign same key value entries).map Prod.fst).Nodup := by
  induction entries with
  | nil => simp [assign]
  | cons entry rest ih =>
      obtain ⟨first, held⟩ := entry
      have hcons := hnodup
      rw [List.map_cons, List.nodup_cons] at hcons
      unfold assign
      split
      · exact hnodup
      · next hother =>
          rw [List.map_cons, List.nodup_cons]
          refine ⟨fun hmem => ?_, ih hcons.2⟩
          rcases mem_map_fst_assign hmem with hrest | heq
          · exact hcons.1 hrest
          · exact hother (heq ▸ hsame first)

theorem map_fst_assign (key : κ) (value : ν) (entries : List (κ × ν)) :
    (assign (· == ·) key value entries).map Prod.fst =
      if (entries.map Prod.fst).contains key then entries.map Prod.fst
      else entries.map Prod.fst ++ [key] := by
  induction entries with
  | nil => rfl
  | cons entry rest ih =>
      obtain ⟨first, held⟩ := entry
      by_cases heq : first = key
      · simp [assign, heq]
      · have hne : (key == first) = false :=
          beq_eq_false_iff_ne.mpr (Ne.symm heq)
        simp only [assign, beq_eq_false_iff_ne.mpr heq,
          Bool.false_eq_true, if_false, List.map_cons, List.contains_cons, hne,
          Bool.false_or, ih]
        split <;> rfl

omit [BEq κ] [LawfulBEq κ] in
theorem length_le_assign (same : κ → κ → Bool) (key : κ) (value : ν)
    (entries : List (κ × ν)) :
    entries.length ≤ (assign same key value entries).length := by
  induction entries with
  | nil => exact Nat.zero_le _
  | cons entry rest ih =>
      unfold assign
      split
      · exact Nat.le_refl _
      · exact Nat.succ_le_succ ih

theorem assign_of_not_mem {key : κ} {value : ν} {entries : List (κ × ν)}
    (hnot : key ∉ entries.map Prod.fst) :
    assign (· == ·) key value entries = entries ++ [(key, value)] := by
  induction entries with
  | nil => rfl
  | cons entry rest ih =>
      obtain ⟨first, held⟩ := entry
      simp only [List.map_cons, List.mem_cons, not_or] at hnot
      simp only [assign, beq_eq_false_iff_ne.mpr (Ne.symm hnot.1),
        Bool.false_eq_true, if_false]
      rw [ih hnot.2, List.cons_append]

theorem assign_comm_perm {key other : κ} (hne : key ≠ other) (value held : ν)
    (entries : List (κ × ν)) :
    (assign (· == ·) key value (assign (· == ·) other held entries)).Perm
      (assign (· == ·) other held (assign (· == ·) key value entries)) := by
  induction entries with
  | nil =>
      simpa [assign, hne, hne.symm]
        using List.Perm.swap (key, value) (other, held) []
  | cons entry rest ih =>
      obtain ⟨first, own⟩ := entry
      by_cases hkey : first = key
      · simp [assign, hkey, hne]
      · by_cases hother : first = other
        · simp [assign, hother, hne.symm]
        · simpa [assign, hkey, hother] using ih

private theorem get?_foldl_assign (pairs entries : List (κ × ν)) (key : κ) :
    get?
      (pairs.foldl (fun entries pair => assign (· == ·) pair.1 pair.2 entries)
        entries) key =
      (get? pairs.reverse key).or (get? entries key) := by
  induction pairs generalizing entries with
  | nil => rfl
  | cons pair rest ih =>
      obtain ⟨own, value⟩ := pair
      rw [List.foldl_cons, ih, List.reverse_cons, get?_append, Option.or_assoc]
      by_cases heq : own = key
      · subst heq
        rw [get?_assign_self, get?_cons_self, Option.some_or]
      · rw [get?_assign_of_ne heq, get?_cons_of_ne heq]
        rfl

theorem get?_ofPairs (pairs : List (κ × ν)) (key : κ) :
    get? (ofPairs (· == ·) pairs) key = get? pairs.reverse key := by
  rw [ofPairs, get?_foldl_assign]
  exact Option.or_none

theorem nodup_ofPairs (pairs : List (κ × ν)) :
    ((ofPairs (· == ·) pairs).map Prod.fst).Nodup := by
  unfold ofPairs
  suffices hall : ∀ entries : List (κ × ν), (entries.map Prod.fst).Nodup →
      ((pairs.foldl (fun entries pair => assign (· == ·) pair.1 pair.2 entries)
        entries).map Prod.fst).Nodup from hall [] List.nodup_nil
  induction pairs with
  | nil => exact fun _ hnodup => hnodup
  | cons pair rest ih =>
      exact fun entries hnodup =>
        ih _ (nodup_assign (fun key => beq_self_eq_true key) hnodup)

theorem mem_ofPairs_iff {pairs : List (κ × ν)} {key : κ} {value : ν} :
    (key, value) ∈ ofPairs (· == ·) pairs ↔
      get? pairs.reverse key = some value := by
  rw [← get?_ofPairs]
  exact ⟨get?_eq_some_of_mem (nodup_ofPairs pairs), mem_of_get?_eq_some⟩

theorem map_fst_ofPairs_congr {pairs others : List (κ × ν)}
    (hkeys : pairs.map Prod.fst = others.map Prod.fst) :
    (ofPairs (· == ·) pairs).map Prod.fst =
      (ofPairs (· == ·) others).map Prod.fst := by
  unfold ofPairs
  suffices hall : ∀ entries more : List (κ × ν),
      entries.map Prod.fst = more.map Prod.fst →
      (pairs.foldl (fun entries pair => assign (· == ·) pair.1 pair.2 entries)
          entries).map Prod.fst =
        (others.foldl (fun entries pair =>
          assign (· == ·) pair.1 pair.2 entries)
          more).map Prod.fst from hall [] [] rfl
  induction pairs generalizing others with
  | nil =>
      cases List.map_eq_nil_iff.mp hkeys.symm
      exact fun _ _ hsame => hsame
  | cons pair rest ih =>
      cases others with
      | nil => cases hkeys
      | cons other tail =>
          simp only [List.map_cons, List.cons.injEq] at hkeys
          intro entries more hsame
          refine ih hkeys.2 _ _ ?_
          rw [map_fst_assign, map_fst_assign, hsame, hkeys.1]

theorem ofPairs_eq_iff {pairs others : List (κ × ν)}
    (hkeys : pairs.map Prod.fst = others.map Prod.fst) :
    ofPairs (· == ·) pairs = ofPairs (· == ·) others ↔
      ∀ key, get? pairs.reverse key = get? others.reverse key := by
  constructor
  · intro heq key
    rw [← get?_ofPairs, ← get?_ofPairs, heq]
  · intro hget
    refine ext_of_get? (nodup_ofPairs pairs) (map_fst_ofPairs_congr hkeys)
      fun key => ?_
    rw [get?_ofPairs, get?_ofPairs, hget]

theorem ofPairs_of_nodup {pairs : List (κ × ν)}
    (hnodup : (pairs.map Prod.fst).Nodup) :
    ofPairs (· == ·) pairs = pairs := by
  unfold ofPairs
  suffices hall :
      ∀ entries : List (κ × ν), ((entries ++ pairs).map Prod.fst).Nodup →
      pairs.foldl (fun entries pair => assign (· == ·) pair.1 pair.2 entries)
        entries =
        entries ++ pairs from hall [] hnodup
  clear hnodup
  induction pairs with
  | nil => exact fun entries _ => (List.append_nil entries).symm
  | cons pair rest ih =>
      intro entries hnodup
      have hfresh : pair.1 ∉ entries.map Prod.fst := by
        simp only [List.map_append, List.map_cons, List.nodup_append] at hnodup
        exact fun hmem => hnodup.2.2 _ hmem _ List.mem_cons_self rfl
      rw [List.foldl_cons, assign_of_not_mem hfresh, ih]
      · simp
      · simpa using hnodup

theorem ofPairs_of_length_eq {pairs : List (κ × ν)}
    (hlength : (ofPairs (· == ·) pairs).length = pairs.length) :
    ofPairs (· == ·) pairs = pairs := by
  have hkeys : (ofPairs (· == ·) pairs).map Prod.fst ⊆ pairs.map Prod.fst := by
    intro key hmem
    by_contra hnot
    have hnone : get? pairs.reverse key = none :=
      get?_eq_none_iff.mpr (by simpa using hnot)
    rw [← get?_ofPairs] at hnone
    exact get?_eq_none_iff.mp hnone hmem
  have hperm :=
    (List.subperm_of_subset (nodup_ofPairs pairs) hkeys).perm_of_length_le
      (by simp [hlength])
  exact ofPairs_of_nodup (hperm.nodup_iff.mp (nodup_ofPairs pairs))

end

theorem assign_map {same : κ → κ → Bool} {other : κ' → κ' → Bool} {f : κ → κ'}
    (hsame : ∀ a b, other (f a) (f b) = same a b) (g : ν → ν') (key : κ)
    (value : ν) (entries : List (κ × ν)) :
    assign other (f key) (g value)
    (entries.map fun entry => (f entry.1, g entry.2)) =
      (assign same key value entries).map fun entry =>
        (f entry.1, g entry.2) := by
  induction entries with
  | nil => rfl
  | cons entry rest ih =>
      simp only [List.map_cons, assign, hsame]
      split
      · rfl
      · rw [ih, List.map_cons]

theorem ofPairs_map {same : κ → κ → Bool} {other : κ' → κ' → Bool} {f : κ → κ'}
    (hsame : ∀ a b, other (f a) (f b) = same a b) (g : ν → ν')
    (pairs : List (κ × ν)) :
    ofPairs other (pairs.map fun pair => (f pair.1, g pair.2)) =
      (ofPairs same pairs).map fun entry => (f entry.1, g entry.2) := by
  unfold ofPairs
  suffices hall : ∀ entries : List (κ × ν),
      (pairs.map fun pair => (f pair.1, g pair.2)).foldl
          (fun entries pair => assign other pair.1 pair.2 entries)
          (entries.map fun entry => (f entry.1, g entry.2)) =
        (pairs.foldl (fun entries pair => assign same pair.1 pair.2 entries)
          entries).map
          fun entry => (f entry.1, g entry.2) from hall []
  induction pairs with
  | nil => exact fun _ => rfl
  | cons pair rest ih =>
      intro entries
      rw [List.map_cons, List.foldl_cons,
        List.foldl_cons, ← ih, ← assign_map hsame g]

theorem filterMap_assign_subperm (same : κ → κ → Bool) (h : ν → Option ω)
    (key : κ) (value : ν) (entries : List (κ × ν)) :
    ((assign same key value entries).filterMap fun entry => h entry.2).Subperm
      ((entries.filterMap fun entry => h entry.2) ++ (h value).toList) := by
  have hcons (entry : κ × ν) (rest : List (κ × ν)) :
      ((entry :: rest).filterMap fun entry => h entry.2) =
        (h entry.2).toList ++ rest.filterMap fun entry => h entry.2 := by
    rw [List.filterMap_cons]
    cases h entry.2 <;> rfl
  induction entries with
  | nil =>
      rw [assign, hcons]
      exact (List.append_nil _).symm ▸ List.Subperm.refl _
  | cons entry rest ih =>
      rw [assign]
      split
      · rw [hcons, hcons, List.append_assoc]
        exact List.perm_append_comm.subperm.trans
          (List.sublist_append_right _ _).subperm
      · rw [hcons, hcons, List.append_assoc]
        exact (List.subperm_append_left _).mpr ih

theorem filterMap_ofPairs_subperm (same : κ → κ → Bool) (h : ν → Option ω)
    (pairs : List (κ × ν)) :
    ((ofPairs same pairs).filterMap fun entry => h entry.2).Subperm
      (pairs.filterMap fun pair => h pair.2) := by
  unfold ofPairs
  suffices hall : ∀ entries : List (κ × ν),
      ((pairs.foldl (fun entries pair => assign same pair.1 pair.2 entries)
        entries).filterMap
        fun entry => h entry.2).Subperm
        ((entries.filterMap fun entry => h entry.2) ++ pairs.filterMap
          fun pair => h pair.2) from
    hall []
  induction pairs with
  | nil => exact fun entries => (List.append_nil _).symm ▸ List.Subperm.refl _
  | cons pair rest ih =>
      intro entries
      have hcons : ((pair :: rest).filterMap fun pair => h pair.2) =
          (h pair.2).toList ++ rest.filterMap fun pair => h pair.2 := by
        rw [List.filterMap_cons]
        cases h pair.2 <;> rfl
      rw [List.foldl_cons, hcons, ← List.append_assoc]
      exact (ih _).trans ((List.subperm_append_right _).mpr
        (filterMap_assign_subperm same h pair.1 pair.2 entries))

end Fragments.Entries
