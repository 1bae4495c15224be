import Fragments.Number.Shortest

namespace Fragments.Binary64

theorem digitCount_le_iff {n k : Nat} (hk : 0 < k) :
    digitCount n ≤ k ↔ n < 10 ^ k :=
  Nat.length_toDigits_le_iff (by decide) hk

theorem digitCount_mul_ten {n : Nat} (hn : 0 < n) :
    digitCount (n * 10) = digitCount n + 1 := by
  have hzero : 10 * n + 0 = n * 10 := by omega
  unfold digitCount
  rw [← hzero, ← Nat.toDigits_append_toDigits (by decide) hn (by decide),
    List.length_append]
  rfl

theorem roundedQuotient_scale {c : Nat} (hc : 0 < c) (a b : Nat) :
    roundedQuotient (a * c) (b * c) = roundedQuotient a b := by
  unfold roundedQuotient
  have hless : 2 * (a % b * c) < b * c ↔ 2 * (a % b) < b := by
    rw [← Nat.mul_assoc]
    exact Nat.mul_lt_mul_right hc
  have htie : 2 * (a % b * c) = b * c ↔ 2 * (a % b) = b := by
    rw [← Nat.mul_assoc]
    exact Nat.mul_left_inj (Nat.ne_of_gt hc)
  simp only [Nat.mul_div_mul_right a b hc, Nat.mul_mod_mul_right, hless, htie]

theorem nearestPosition_scale {c : Nat} (hc : 0 < c)
    (numerator denominator : Nat) :
    nearestPosition (numerator * c) (denominator * c) =
      nearestPosition numerator denominator := by
  unfold nearestPosition
  have hscaled : numerator * c * 2 ^ 1074 = numerator * 2 ^ 1074 * c :=
    Nat.mul_right_comm _ _ _
  have hbinade : ∀ k, denominator * c * 2 ^ k = denominator * 2 ^ k * c :=
    fun k =>
      Nat.mul_right_comm _ _ _
  simp only [hscaled, hbinade, Nat.mul_div_mul_right _ _ hc,
    roundedQuotient_scale hc]

theorem roundedQuotient_exact {b : Nat} (hb : 0 < b) (a : Nat) :
    roundedQuotient (a * b) b = a := by
  unfold roundedQuotient
  simp only [Nat.mul_div_cancel a hb, Nat.mul_mod_left, Nat.mul_zero, if_pos hb]

theorem units_eq (position : Nat) :
    ∃ binade significand, units position = significand * 2 ^ binade ∧
      significand < 2 ^ 53 ∧ (binade = 0 ∨ 2 ^ 52 ≤ significand) ∧
      position = binade * 2 ^ 52 + significand := by
  unfold units
  split
  · next hsmall => exact ⟨0, position, by simp, by omega, Or.inl rfl, by simp⟩
  · next hlarge =>
      refine ⟨position / 2 ^ 52 - 1, 2 ^ 52 + position % 2 ^ 52, rfl, by
        omega, Or.inr (by omega), by omega⟩

private theorem rounding_of_units (unit : Nat) (hunit : 0 < unit)
    {value significand binade : Nat} (hvalue : value = significand * 2 ^ binade)
    (hbinade : value.log2 - 52 = binade) :
    ((value * unit / unit).log2 - 52) * 2 ^ 52 +
        roundedQuotient (value * unit)
        (unit * 2 ^ ((value * unit / unit).log2 - 52)) =
      binade * 2 ^ 52 + significand := by
  have hexact : value * unit = significand * (unit * 2 ^ binade) := by
    rw [hvalue, Nat.mul_assoc, Nat.mul_comm (2 ^ binade)]
  rw [Nat.mul_div_cancel _ hunit, hbinade, hexact,
    roundedQuotient_exact (Nat.mul_pos hunit (Nat.two_pow_pos binade))]

theorem nearestPosition_units (position : Nat) :
    nearestPosition (units position) (2 ^ 1074) = position := by
  obtain ⟨binade, significand, hunits, hsmall, hlarge, hposition⟩ :=
    units_eq position
  have hpow : ∀ k, 0 < 2 ^ k := fun k => Nat.two_pow_pos k
  have hbinade : (units position).log2 - 52 = binade := by
    rw [hunits]
    rcases hlarge with rfl | hlarge
    · have hlog : significand.log2 < 53 := by
        by_cases hzero : significand = 0
        · simp [hzero]
        · exact (Nat.log2_lt hzero).mpr hsmall
      rw [Nat.pow_zero, Nat.mul_one]
      omega
    · have hne : significand * 2 ^ binade ≠ 0 :=
        Nat.mul_ne_zero (by omega) (Nat.ne_of_gt (hpow binade))
      have hlow : 52 + binade ≤ (significand * 2 ^ binade).log2 := by
        rw [Nat.le_log2 hne, Nat.pow_add]
        exact Nat.mul_le_mul_right _ hlarge
      have hhigh : (significand * 2 ^ binade).log2 < 53 + binade := by
        rw [Nat.log2_lt hne, Nat.pow_add]
        exact Nat.mul_lt_mul_of_pos_right hsmall (hpow binade)
      omega
  unfold nearestPosition
  exact (rounding_of_units (2 ^ 1074) (hpow 1074) hunits hbinade).trans
    hposition.symm

theorem ofRatio_scale {c : Nat} (hc : 0 < c) (negative : Bool)
    (numerator denominator : Nat) :
    ofRatio negative (numerator * c) (denominator * c) =
      ofRatio negative numerator denominator := by
  rw [ofRatio, nearestPosition_scale hc, ofRatio]

theorem ofDecimal_mul_ten {digits : Nat} (hdigits : 0 < digits)
    (negative : Bool) (exponent : Int) :
    ofDecimal negative (digits * 10) exponent =
      ofDecimal negative digits (exponent + 1) := by
  have hcount : (digitCount (digits * 10) : Int) + exponent =
      digitCount digits + (exponent + 1) := by
    rw [digitCount_mul_ten hdigits]
    omega
  unfold ofDecimal
  rw [if_neg (show digits * 10 ≠ 0 by omega),
    if_neg (show digits ≠ 0 by omega), hcount]
  congr 2
  by_cases hnonneg : 0 ≤ exponent
  · have hpower : (exponent + 1).toNat = exponent.toNat + 1 := by omega
    rw [if_pos hnonneg, if_pos (by omega), hpower, Nat.pow_succ,
      Nat.mul_comm (10 ^ _), Nat.mul_assoc]
  · rw [if_neg hnonneg]
    by_cases hlast : 0 ≤ exponent + 1
    · have hexponent : exponent = -1 := by omega
      subst hexponent
      have hten : 10 ^ (-(-1 : Int)).toNat = 1 * 10 := rfl
      have hone : digits * 10 ^ ((-1 : Int) + 1).toNat = digits :=
        Nat.mul_one digits
      rw [if_pos hlast, hten, hone, ofRatio_scale (by decide)]
    · have hpower : (-exponent).toNat = (-(exponent + 1)).toNat + 1 := by omega
      rw [if_neg hlast, hpower, Nat.pow_succ, ofRatio_scale (by decide)]

theorem ofDecimal_mul_pow {digits : Nat} (hdigits : 0 < digits)
    (negative : Bool) (k : Nat) (exponent : Int) :
    ofDecimal negative (digits * 10 ^ k) exponent =
      ofDecimal negative digits (exponent + k) := by
  induction k generalizing exponent with
  | zero => simp
  | succ k ih =>
      have hpos : 0 < digits * 10 ^ k :=
        Nat.mul_pos hdigits (Nat.pow_pos (by decide))
      rw [Nat.pow_succ, ← Nat.mul_assoc, ofDecimal_mul_ten hpos, ih]
      congr 1
      omega

def withSign (negative : Bool) : Binary64 → Binary64
  | nan => nan
  | infinite _ => infinite negative
  | finite _ position => finite negative position

theorem ofPosition_withSign (negative : Bool) (position : Nat) :
    (ofPosition false position).withSign negative =
      ofPosition negative position := by
  unfold ofPosition
  split <;> rfl

theorem ofDecimal_withSign (negative : Bool) (digits : Nat) (exponent : Int) :
    (ofDecimal false digits exponent).withSign negative =
      ofDecimal negative digits exponent := by
  unfold ofDecimal ofRatio
  split
  · exact ofPosition_withSign negative 0
  · split
    · rfl
    · split
      · exact ofPosition_withSign negative 0
      · split <;> exact ofPosition_withSign negative _

end Fragments.Binary64
