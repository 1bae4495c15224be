import Fragments.Proofs.Text.Case

namespace Fragments.Text

/-- The run that the images of a run make up. -/
def CaseRun.image (run : CaseRun) : CaseRun where
  first := (run.first + run.shift).toNat
  last := (run.last + run.shift).toNat
  step := run.step
  shift := 0

/-- Whether a run holds no two neighbours. -/
def CaseRun.isSparse (run : CaseRun) : Bool :=
  run.step == 2 || run.first == run.last

/-- Whether two runs are so placed that they have no code point in common. -/
def CaseRun.isApart (run other : CaseRun) : Bool :=
  Nat.blt run.last other.first || Nat.blt other.last run.first ||
    (run.isSparse && other.isSparse && (run.first + other.first) % 2 == 1)

theorem CaseRun.holds_iff {run : CaseRun} {n : Nat} :
    run.holds n = true ↔ run.first ≤ n ∧ n ≤ run.last ∧
      (n - run.first) % run.step = 0 := by
  simp only [CaseRun.holds, Bool.and_eq_true, decide_eq_true_eq,
    beq_iff_eq, and_assoc]

theorem CaseRun.even_of_isSparse {run : CaseRun} {n : Nat}
    (hsparse : run.isSparse = true) (hholds : run.holds n = true) :
    (n - run.first) % 2 = 0 := by
  obtain ⟨hfirst, hlast, hstep⟩ := holds_iff.mp hholds
  simp only [isSparse, Bool.or_eq_true, beq_iff_eq] at hsparse
  rcases hsparse with htwo | hone
  · rwa [htwo] at hstep
  · omega

theorem CaseRun.not_holds_of_isApart {run other : CaseRun} {n : Nat}
    (hapart : run.isApart other = true) (hholds : run.holds n = true) :
    ¬other.holds n = true := by
  intro hother
  have hrun := holds_iff.mp hholds
  have hsecond := holds_iff.mp hother
  simp only [isApart, Bool.or_eq_true, Bool.and_eq_true, Nat.blt_eq, beq_iff_eq]
    at hapart
  rcases hapart with (hbelow | habove) | ⟨⟨hsparse, hsparseOther⟩, hodd⟩
  · omega
  · omega
  · -- the two hold code points of different parities
    have heven := even_of_isSparse hsparse hholds
    have hevenOther := even_of_isSparse hsparseOther hother
    omega

theorem CaseRun.image_holds {run : CaseRun} {n : Nat}
    (hnonneg : 0 ≤ run.first + run.shift) (hholds : run.holds n = true) :
    run.image.holds (n + run.shift).toNat = true := by
  obtain ⟨hfirst, hlast, hstep⟩ := holds_iff.mp hholds
  refine holds_iff.mpr ⟨?_, ?_, ?_⟩
  · show (run.first + run.shift).toNat ≤ (n + run.shift).toNat
    omega
  · show (n + run.shift).toNat ≤ (run.last + run.shift).toNat
    omega
  · show ((n + run.shift).toNat - (run.first + run.shift).toNat) % run.step = 0
    rwa [show (n + run.shift).toNat - (run.first + run.shift).toNat =
      n - run.first by omega]

/-- The runs of all letters beyond ASCII that have a lower case, the dotted
capital I among them. -/
def capitalRuns : List CaseRun := ⟨0x130, 0x130, 1, 0⟩ :: lowerRuns

def isCapital (n : Nat) : Bool := capitalRuns.any (·.holds n)

theorem isApart_of_mem_lowerRuns {run other : CaseRun} (hrun : run ∈ lowerRuns)
    (hother : other ∈ capitalRuns) : run.image.isApart other = true := by
  have hall : (lowerRuns.all fun run => capitalRuns.all run.image.isApart) =
      true := by
    decide +kernel
  simp only [List.all_eq_true] at hall
  exact hall run hrun other hother

theorem nonneg_of_mem_lowerRuns {run : CaseRun} (hrun : run ∈ lowerRuns) :
    0 ≤ run.first + run.shift := by
  have hall : (lowerRuns.all fun run => decide (0 ≤ run.first + run.shift)) =
      true := by
    decide +kernel
  simp only [List.all_eq_true, decide_eq_true_eq] at hall
  exact hall run hrun

theorem isCapital_of_ascii {n : Nat} (hascii : n < 128) :
    isCapital n = false := by
  have hall : (capitalRuns.all fun run => decide (128 ≤ run.first)) = true := by
    decide +kernel
  simp only [List.all_eq_true, decide_eq_true_eq] at hall
  refine List.any_eq_false.mpr fun run hrun hholds => ?_
  simp only [CaseRun.holds, Bool.and_eq_true, decide_eq_true_eq] at hholds
  have hfirst := hall run hrun
  omega

theorem isCapital_shiftBy {n : Nat} (hdotted : n ≠ 0x130) :
    isCapital (shiftBy lowerRuns n) = false := by
  unfold shiftBy
  split
  · next run hfind =>
      have hrun := List.mem_of_find?_eq_some hfind
      have hholds := List.find?_some hfind
      have himage := CaseRun.image_holds (nonneg_of_mem_lowerRuns hrun) hholds
      exact List.any_eq_false.mpr fun other hother =>
        CaseRun.not_holds_of_isApart
          (isApart_of_mem_lowerRuns hrun hother) himage
  · next hnone =>
      rw [isCapital, capitalRuns, List.any_cons, Bool.or_eq_false_iff]
      constructor
      · simp only [CaseRun.holds, Bool.and_eq_false_iff,
          decide_eq_false_iff_not]
        omega
      · simpa using hnone

/-- Whether a character has no lower case but itself. -/
structure IsSettled (c : Char) : Prop where
  ascii : isUpperAscii c = false
  beyond : isCapital c.toNat = false

instance (c : Char) : Decidable (IsSettled c) :=
  decidable_of_iff (isUpperAscii c = false ∧ isCapital c.toNat = false)
    ⟨fun h => ⟨h.1, h.2⟩, fun h => ⟨h.1, h.2⟩⟩

theorem IsSettled.ne_sigma {c : Char} (hsettled : IsSettled c) :
    c.toNat ≠ 0x3A3 := by
  intro heq
  have hcapital := hsettled.beyond
  rw [heq] at hcapital
  exact absurd hcapital (by decide +kernel)

theorem IsSettled.ne_dotted {c : Char} (hsettled : IsSettled c) :
    c.toNat ≠ 0x130 := by
  intro heq
  have hcapital := hsettled.beyond
  rw [heq] at hcapital
  exact absurd hcapital (by decide +kernel)

theorem shiftBy_of_not_isCapital {n : Nat} (hcapital : isCapital n = false) :
    shiftBy lowerRuns n = n := by
  rw [isCapital, capitalRuns, List.any_cons, Bool.or_eq_false_iff] at hcapital
  have hnone : lowerRuns.find? (·.holds n) = none := by simpa using hcapital.2
  rw [shiftBy, hnone]

theorem IsSettled.lowerChar {c : Char} (hsettled : IsSettled c) :
    lowerChar c = [c] := by
  unfold Text.lowerChar
  split
  · rw [hsettled.ascii, if_neg Bool.false_ne_true]
  · rw [if_neg hsettled.ne_dotted, shiftBy_of_not_isCapital hsettled.beyond,
      Char.ofNat_toNat]

/-- A code point that stands for no character stands for the null character,
which is settled. -/
theorem isSettled_ofNat {n : Nat} (hascii : n < 65 ∨ 90 < n)
    (hcapital : isCapital n = false) :
    IsSettled (Char.ofNat n) := by
  by_cases hvalid : n.isValidChar
  · have hcode : (Char.ofNat n).toNat = n := by
      rw [Char.ofNat, dif_pos hvalid]
      rfl
    refine ⟨?_, by rwa [hcode]⟩
    rw [← Bool.not_eq_true, isUpperAscii_iff, hcode]
    omega
  · rw [Char.ofNat, dif_neg hvalid]
    decide +kernel

theorem isSettled_of_mem_lowerChar {c d : Char} (hmem : d ∈ lowerChar c) :
    IsSettled d := by
  unfold lowerChar at hmem
  split at hmem
  · next hascii =>
      rw [List.mem_singleton] at hmem
      subst hmem
      split
      · next hupper =>
          have hbounds := isUpperAscii_iff.mp hupper
          exact isSettled_ofNat (.inr (by omega))
            (isCapital_of_ascii (by omega))
      · next hupper =>
          exact ⟨Bool.not_eq_true _ ▸ hupper, isCapital_of_ascii hascii⟩
  · next hbeyond =>
      split at hmem
      · simp only [List.mem_cons, List.not_mem_nil, or_false] at hmem
        rcases hmem with rfl | rfl
        · decide +kernel
        · decide +kernel
      · next hdotted =>
          rw [List.mem_singleton] at hmem
          subst hmem
          refine isSettled_ofNat (.inr ?_) (isCapital_shiftBy hdotted)
          rcases shiftBy_lowerRuns (Nat.le_of_not_lt hbeyond) with
            hlarge | hkelvin
          · omega
          · rw [hkelvin]
            decide

theorem isSettled_of_mem_lowerFrom {chars : List Char}
    {afterCased : Bool} {d : Char} (hmem : d ∈ lowerFrom afterCased chars) :
    IsSettled d := by
  induction chars generalizing afterCased with
  | nil => cases hmem
  | cons c rest ih =>
      rw [lowerFrom, List.mem_append] at hmem
      rcases hmem with hfirst | hrest
      · split at hfirst
        · -- either form of the small sigma
          rw [List.mem_singleton] at hfirst
          subst hfirst
          split <;> decide +kernel
        · exact isSettled_of_mem_lowerChar hfirst
      · exact ih hrest

theorem lowerFrom_of_isSettled {chars : List Char}
    (hsettled : ∀ c ∈ chars, IsSettled c) (afterCased : Bool) :
    lowerFrom afterCased chars = chars := by
  induction chars generalizing afterCased with
  | nil => rfl
  | cons c rest ih =>
      obtain ⟨hfirst, hrest⟩ := List.forall_mem_cons.mp hsettled
      rw [lowerFrom, if_neg hfirst.ne_sigma, hfirst.lowerChar, ih hrest]
      rfl

/-- Whatever the letters and their neighbours, a text in lower case is its own
lower case. -/
theorem lower_lower (text : String) : lower (lower text) = lower text := by
  have hsettled : ∀ c ∈ (lower text).toList, IsSettled c := by
    rw [lower, String.toList_ofList]
    exact fun _ => isSettled_of_mem_lowerFrom
  rw [lower, lowerFrom_of_isSettled hsettled, String.ofList_toList]

end Fragments.Text
