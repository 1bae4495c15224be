import Fragments.Number.Shortest
import Mathlib.Data.List.DropRight

namespace Fragments.Binary64

theorem head?_toDigits_ne {n : Nat} (hn : 0 < n) :
    (Nat.toDigits 10 n).head? ≠ some '0' := by
  induction n using Nat.strongRecOn with
  | ind n ih =>
      rw [Nat.toDigits_eq_if (by decide)]
      split
      · intro hhead
        have hzero := Nat.digitChar_eq_zero.mp (Option.some.inj hhead)
        omega
      · next hlarge =>
          rw [List.head?_append_of_ne_nil _ Nat.toDigits_ne_nil]
          exact ih (n / 10) (by omega) (by omega)

theorem exists_append_zeros {chars : List Char}
    (hother : ∃ c ∈ chars, c ≠ '0') :
    trimZeros chars ≠ [] ∧
      ∃ count, chars = trimZeros chars ++ List.replicate count '0' := by
  have hkept : chars.rdropWhile (· == '0') ≠ [] := by
    intro hnone
    obtain ⟨c, hmem, hc⟩ := hother
    exact hc (eq_of_beq (List.rdropWhile_eq_nil_iff.mp hnone c hmem))
  have htrim : trimZeros chars = chars.rdropWhile (· == '0') := by
    unfold trimZeros
    split
    · next hnil => exact absurd hnil hkept
    · rfl
  have hzeros : chars.rtakeWhile (· == '0') =
      List.replicate (chars.rtakeWhile (· == '0')).length '0' := by
    refine List.eq_replicate_iff.mpr ⟨rfl, fun c hmem => ?_⟩
    exact eq_of_beq (List.mem_rtakeWhile_imp (p := (· == '0')) hmem)
  rw [htrim]
  exact ⟨hkept, _, by rw [← hzeros, List.rdropWhile_append_rtakeWhile]⟩

theorem trimZeros_toDigits {n : Nat} (hn : 0 < n) :
    trimZeros (Nat.toDigits 10 n) ≠ [] ∧
      (trimZeros (Nat.toDigits 10 n)).head? ≠ some '0' ∧
        (∀ c ∈ trimZeros (Nat.toDigits 10 n), c.isDigit = true) ∧
      ∃ count, n = Nat.ofDigitChars 10 (trimZeros (Nat.toDigits 10 n)) 0 *
      10 ^ count ∧
        digitCount n = (trimZeros (Nat.toDigits 10 n)).length + count := by
  have hhead := head?_toDigits_ne hn
  have hother : ∃ c ∈ Nat.toDigits 10 n, c ≠ '0' := by
    cases hdigits : Nat.toDigits 10 n with
    | nil => exact absurd hdigits Nat.toDigits_ne_nil
    | cons c rest =>
        rw [hdigits] at hhead
        exact ⟨c, List.mem_cons_self, fun heq => hhead (congrArg some heq)⟩
  obtain ⟨hne, count, happend⟩ := exists_append_zeros hother
  have hall : ∀ c ∈ Nat.toDigits 10 n, c.isDigit = true := fun c hmem =>
    Nat.isDigit_of_mem_toDigits (by decide) (by decide) hmem
  have hvalue : Nat.ofDigitChars 10 (Nat.toDigits 10 n) 0 = n :=
    Nat.ofDigitChars_ten_toDigits
  rw [digitCount]
  generalize trimZeros (Nat.toDigits 10 n) = kept at *
  rw [happend] at hhead hall hvalue
  refine ⟨hne, ?_, fun c hmem => hall c (List.mem_append_left _ hmem),
    count, ?_, ?_⟩
  · rwa [List.head?_append_of_ne_nil _ hne] at hhead
  · rw [Nat.ofDigitChars_append, Nat.ofDigitChars_replicate_zero, Nat.mul_comm]
      at hvalue
    exact hvalue.symm
  · rw [happend, List.length_append, List.length_replicate]

end Fragments.Binary64
