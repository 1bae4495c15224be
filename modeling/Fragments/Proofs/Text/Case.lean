import Fragments.Text.Case

namespace Fragments.Text

theorem isUpperAscii_iff {c : Char} :
    isUpperAscii c = true ↔ 65 ≤ c.toNat ∧ c.toNat ≤ 90 := by
  simp only [isUpperAscii, Bool.and_eq_true, decide_eq_true_eq]
  rfl

theorem isLowerAscii_iff {c : Char} :
    isLowerAscii c = true ↔ 97 ≤ c.toNat ∧ c.toNat ≤ 122 := by
  simp only [isLowerAscii, Bool.and_eq_true, decide_eq_true_eq]
  rfl

theorem toLower_of_isUpperAscii {c : Char} (hupper : isUpperAscii c = true) :
    c.toLower = Char.ofNat (c.toNat + 32) ∧ c.toLower.toNat = c.toNat + 32 := by
  simp only [isUpperAscii, Bool.and_eq_true, decide_eq_true_eq] at hupper
  have hbound : c.val.toNat ≤ 90 := UInt32.le_iff_toNat_le.mp hupper.2
  have hnat : c.toLower.toNat = c.toNat + 32 := by
    have hshifted : c.toLower = _ := dif_pos hupper
    have hstep : (32 : UInt32).toNat = 32 := rfl
    rw [hshifted]
    show (c.val + 32).toNat = c.val.toNat + 32
    rw [UInt32.toNat_add, hstep]
    exact Nat.mod_eq_of_lt (by omega)
  exact ⟨by rw [← hnat, Char.ofNat_toNat], hnat⟩

theorem toLower_of_not_isUpperAscii {c : Char}
    (hupper : isUpperAscii c = false) :
    c.toLower = c := by
  refine dif_neg fun hrange => ?_
  have hall : isUpperAscii c = true := by
    simp only [isUpperAscii, Bool.and_eq_true, decide_eq_true_eq]
    exact hrange
  rw [hall] at hupper
  cases hupper

theorem lowerChar_of_ascii {c : Char} (hascii : c.toNat < 128) :
    lowerChar c = [c.toLower] := by
  rw [lowerChar, if_pos hascii]
  cases hupper : isUpperAscii c with
  | true => rw [if_pos rfl, (toLower_of_isUpperAscii hupper).1]
  | false => rw [if_neg (by decide), toLower_of_not_isUpperAscii hupper]

theorem toNat_lt_of_toLower {c : Char} (hlower : c.toLower.toNat < 128) :
    c.toNat < 128 := by
  cases hupper : isUpperAscii c with
  | true =>
      have hshift := (toLower_of_isUpperAscii hupper).2
      omega
  | false => rwa [toLower_of_not_isUpperAscii hupper] at hlower

theorem lowerFrom_of_ascii {chars : List Char}
    (hascii : ∀ c ∈ chars, c.toNat < 128) (afterCased : Bool) :
    lowerFrom afterCased chars = chars.map Char.toLower := by
  induction chars generalizing afterCased with
  | nil => rfl
  | cons c rest ih =>
      have hfirst := hascii c List.mem_cons_self
      rw [lowerFrom, ih fun d hd => hascii d (List.mem_cons_of_mem c hd),
        if_neg (by omega), lowerChar_of_ascii hfirst]
      rfl

theorem lower_of_ascii {text : String}
    (hascii : ∀ c ∈ text.toList, c.toNat < 128) :
    lower text = text.toLower := by
  rw [lower, lowerFrom_of_ascii hascii, ← String.toList_map,
    String.ofList_toList]
  rfl

theorem newline_mem_lowerFrom {chars : List Char} (hmem : '\n' ∈ chars)
    (afterCased : Bool) :
    '\n' ∈ lowerFrom afterCased chars := by
  induction chars generalizing afterCased with
  | nil => cases hmem
  | cons c rest ih =>
      rw [lowerFrom, List.mem_append]
      rcases List.mem_cons.mp hmem with rfl | hrest
      · exact .inl (List.mem_singleton.mpr rfl)
      · exact .inr (ih hrest _)

theorem newline_mem_lower {text : String} (hmem : '\n' ∈ text.toList) :
    '\n' ∈ (lower text).toList := by
  rw [lower, String.toList_ofList]
  exact newline_mem_lowerFrom hmem false

/-- A letter that comes from ASCII characters alone. -/
def isPlainLetter (letter : Char) : Bool :=
  isLowerAscii letter && letter != 'i' && letter != 'k'

theorem shiftBy_lowerRuns {n : Nat} (hn : 128 ≤ n) :
    128 ≤ shiftBy lowerRuns n ∨ shiftBy lowerRuns n = 'k'.toNat := by
  -- the run that starts below is the one of the kelvin sign, which is alone in
  -- it
  have hruns : ∀ run ∈ lowerRuns, 128 ≤ run.first + run.shift ∨
      run.first = run.last ∧ run.first + run.shift = 107 := by
    have hall : (lowerRuns.all fun run => decide (128 ≤ run.first + run.shift ∨
        run.first = run.last ∧ run.first + run.shift = 107)) = true := by
        decide +kernel
    simpa only [List.all_eq_true, decide_eq_true_eq] using hall
  unfold shiftBy
  split
  · next run hfind =>
      have hholds := List.find?_some hfind
      simp only [CaseRun.holds, Bool.and_eq_true, decide_eq_true_eq] at hholds
      have hrun := hruns run (List.mem_of_find?_eq_some hfind)
      show 128 ≤ _ ∨ _ = 107
      omega
  · exact .inl hn

theorem toNat_eq_of_ofNat_eq {n : Nat} {letter : Char}
    (hletter : isLowerAscii letter = true) (heq : Char.ofNat n = letter) :
    n = letter.toNat := by
  have hbounds := isLowerAscii_iff.mp hletter
  by_cases hvalid : n.isValidChar
  · rw [← heq, Char.ofNat, dif_pos hvalid]
    rfl
  · rw [Char.ofNat, dif_neg hvalid] at heq
    subst heq
    exact absurd hbounds.1 (by decide)

theorem ascii_of_plain_mem_lowerChar {c letter : Char}
    (hletter : isPlainLetter letter = true) {more : List Char}
    (hlower : lowerChar c = letter :: more) : c.toNat < 128 := by
  simp only [isPlainLetter, Bool.and_eq_true, bne_iff_ne] at hletter
  obtain ⟨⟨hletter, hi⟩, hk⟩ := hletter
  unfold lowerChar at hlower
  split at hlower
  · assumption
  · next hascii =>
      split at hlower
      · exact absurd (List.cons.inj hlower).1.symm hi
      · have hcode := toNat_eq_of_ofNat_eq hletter (List.cons.inj hlower).1
        have hbounds := isLowerAscii_iff.mp hletter
        rcases shiftBy_lowerRuns (Nat.le_of_not_lt hascii) with hlarge | hkelvin
        · omega
        · exact absurd (Char.toNat_inj.mp (hcode.symm.trans hkelvin)) hk

theorem exists_lowerChar_eq_cons (c : Char) :
    ∃ letter more, lowerChar c = letter :: more := by
  unfold lowerChar
  split
  · exact ⟨_, _, rfl⟩
  · split <;> exact ⟨_, _, rfl⟩

theorem ascii_of_lowerFrom {chars : List Char} {afterCased : Bool}
    (hplain : ∀ letter ∈ lowerFrom afterCased chars,
      isPlainLetter letter = true) :
    ∀ c ∈ chars, c.toNat < 128 := by
  induction chars generalizing afterCased with
  | nil => nofun
  | cons c rest ih =>
      simp only [lowerFrom, List.mem_append, or_imp, forall_and] at hplain
      obtain ⟨hfirst, hrest⟩ := hplain
      rw [List.forall_mem_cons]
      refine ⟨?_, ih hrest⟩
      split at hfirst
      · rw [List.forall_mem_singleton] at hfirst
        split at hfirst <;> exact absurd hfirst (by decide)
      · obtain ⟨letter, more, hlower⟩ := exists_lowerChar_eq_cons c
        exact ascii_of_plain_mem_lowerChar
          (hfirst letter (hlower ▸ List.mem_cons_self)) hlower

end Fragments.Text
