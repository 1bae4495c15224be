import Fragments.Proofs.Number.Rounding

namespace Fragments.Binary64

theorem units_lt {position : Nat} (hposition : position < 2047 * 2 ^ 52) :
    ∃ top, top ≤ 2098 ∧ units position < 2 ^ top := by
  obtain ⟨binade, significand, hunits, hsmall, hlarge, heq⟩ := units_eq position
  refine ⟨53 + binade, by omega, ?_⟩
  rw [hunits, Nat.pow_add]
  exact Nat.mul_lt_mul_of_pos_right hsmall (Nat.two_pow_pos binade)

theorem units_pos {position : Nat} (hposition : 0 < position) :
    0 < units position := by
  obtain ⟨binade, significand, hunits, -, hlarge, heq⟩ := units_eq position
  rw [hunits]
  exact Nat.mul_pos (by omega) (Nat.two_pow_pos binade)

theorem ofRatio_mul_five_pow (negative : Bool) (numerator k : Nat) :
    ofRatio negative (numerator * 5 ^ k) (10 ^ k) =
      ofRatio negative numerator (2 ^ k) := by
  have hten : 10 ^ k = 2 ^ k * 5 ^ k := Nat.mul_pow 2 5 k
  rw [hten, ofRatio_scale (Nat.pow_pos (by decide))]

theorem ofDecimal_neg {digits k : Nat} (hdigits : 0 < digits) (hk : 0 < k)
    (hlow : k ≤ digitCount digits + 330) (hhigh : digitCount digits ≤ k + 310)
    (negative : Bool) : ofDecimal negative digits (-k) = ofRatio negative digits
      (10 ^ k) := by
  unfold ofDecimal
  rw [if_neg (by omega), if_neg (by omega), if_neg (by omega),
    if_neg (by omega), Int.neg_neg, Int.toNat_natCast]

private theorem digitCount_units_le {position : Nat}
    (hposition : position < 2047 * 2 ^ 52) :
    digitCount (units position * 5 ^ 1074) ≤ 1384 := by
  obtain ⟨top, htop, hunits⟩ := units_lt hposition
  have hpower : ∀ k, 0 < 5 ^ k := fun k => Nat.pow_pos (by decide)
  have hlimit : ∀ limit, top ≤ limit →
      2 ^ top * 5 ^ 1074 ≤ 2 ^ limit * 5 ^ 1074 :=
    fun _ hle => Nat.mul_le_mul_right _ (Nat.pow_le_pow_right (by decide) hle)
  rw [digitCount_le_iff (by decide)]
  refine Nat.lt_of_lt_of_le
    (Nat.mul_lt_mul_of_pos_right hunits (hpower 1074)) ?_
  exact Nat.le_trans (hlimit 2098 htop) (by decide +kernel)

private theorem le_digitCount_units {position : Nat}
    (hpositive : 0 < position) :
    744 ≤ digitCount (units position * 5 ^ 1074) := by
  refine Nat.lt_of_not_le fun hfew => ?_
  rw [digitCount_le_iff (by decide)] at hfew
  refine Nat.not_le.mpr hfew ?_
  calc 10 ^ 743 ≤ 1 * 5 ^ 1074 := by decide +kernel
    _ ≤ units position * 5 ^ 1074 :=
    Nat.mul_le_mul_right _ (units_pos hpositive)

theorem exponent_mk (digits k : Nat) :
    (Decimal.mk digits (digitCount digits - k)).exponent = -(k : Int) := by
  simp only [Decimal.exponent]
  omega

theorem exactDecimal_readsAs {position : Nat} (hpositive : 0 < position)
    (hposition : position < 2047 * 2 ^ 52) :
    (exactDecimal position).readsAs position = true := by
  have hlow := le_digitCount_units hpositive
  have hhigh := digitCount_units_le hposition
  have hpower : ∀ k, 0 < 5 ^ k := fun k => Nat.pow_pos (by decide)
  have hdigits := Nat.mul_pos (units_pos hpositive) (hpower 1074)
  have hexponent : (exactDecimal position).exponent = -((1074 : Nat) : Int) :=
    exponent_mk _ _
  rw [Decimal.readsAs, beq_iff_eq, hexponent]
  change ofDecimal false (units position * 5 ^ 1074) _ = _
  rw [ofDecimal_neg (k := 1074) hdigits (by decide)
    (Nat.add_le_add_right hlow 330) hhigh,
    ofRatio_mul_five_pow false (units position) 1074, ofRatio,
    nearestPosition_units]

theorem shortest_readsAs {position : Nat} (hpositive : 0 < position)
    (hposition : position < 2047 * 2 ^ 52) :
    (shortest position).readsAs position = true := by
  unfold shortest
  rw [if_neg (Nat.ne_of_gt hpositive)]
  simp only
  generalize List.flatMap _ _ = candidates
  cases hfound : candidates.find? (·.readsAs position) with
  | some decimal => exact List.find?_some hfound
  | none => exact exactDecimal_readsAs hpositive hposition

theorem digits_pos_of_readsAs {position : Nat} (hpositive : 0 < position)
    (hposition : position < 2047 * 2 ^ 52) {d : Decimal}
    (hreads : d.readsAs position = true) :
    0 < d.digits := by
  refine Nat.pos_of_ne_zero fun hzero => ?_
  rw [Decimal.readsAs, beq_iff_eq, ofDecimal, if_pos hzero, ofPosition,
    ofPosition, dif_pos (by decide), dif_pos hposition, finite.injEq,
    Fin.mk.injEq] at hreads
  omega

end Fragments.Binary64
