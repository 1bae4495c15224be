import Fragments.Proofs.Json.Numbers
import Fragments.Proofs.Json.Strings

namespace Fragments.Json

def EndsValue (rest : List Char) : Prop :=
  ∀ c, rest.head? = some c → c = ',' ∨ c = '\n'

theorem endsValue_nil : EndsValue [] := by
  intro c hhead
  cases hhead

theorem EndsValue.endsNumber {rest : List Char} (hrest : EndsValue rest) :
    EndsNumber rest := by
  intro c hhead
  rcases hrest c hhead with rfl | rfl <;> decide

theorem wholePart?_starts {chars whole rest : List Char}
    (h : wholePart? chars = some (whole, rest)) :
    ∃ c more, chars = c :: more ∧ c.isDigit = true := by
  cases chars with
  | nil => cases h
  | cons c more =>
      refine ⟨c, more, rfl, ?_⟩
      by_contra hdigit
      have hne : c ≠ '0' := by
        rintro rfl
        exact hdigit rfl
      have hfunc : isDigit c = false := Bool.eq_false_iff.mpr hdigit
      rw [wholePart?, hfunc] at h
      · cases h
      · exact hne

theorem readNumber?_starts {chars : List Char}
    {found : Except Fault Json × List Char}
    (h : readNumber? chars = some found) :
    ∃ c ∈ chars.take 2, c.isDigit = true := by
  obtain ⟨⟨whole, afterWhole⟩, hwhole, -⟩ := Option.bind_eq_some_iff.mp h
  obtain ⟨c, more, hunsigned, hdigit⟩ := wholePart?_starts hwhole
  refine ⟨c, ?_, hdigit⟩
  split at hunsigned <;> cases hunsigned
  · exact List.mem_cons_of_mem _ List.mem_cons_self
  · exact List.mem_cons_self

private theorem constants_wordy :
    ∀ found ∈ constants,
      2 ≤ found.1.toList.length ∧ found.1.toList.any Char.isDigit = false := by
  intro found hmem
  simp only [constants, List.mem_cons, List.not_mem_nil, or_false] at hmem
  rcases hmem with rfl | rfl | rfl | rfl | rfl | rfl <;> decide

theorem readConstant?_of_readNumber? {chars : List Char}
    {found : Except Fault Json × List Char}
    (h : readNumber? chars = some found) : readConstant? chars = none := by
  obtain ⟨c, hc, hdigit⟩ := readNumber?_starts h
  refine List.findSome?_eq_none_iff.mpr fun ⟨word, value⟩ hmem => ?_
  obtain ⟨hlength, hword⟩ := constants_wordy _ hmem
  have hmarked : word.toList.isPrefixOf chars = false := by
    rw [Bool.eq_false_iff, ne_eq, List.isPrefixOf_iff_prefix]
    rintro ⟨rest, rfl⟩
    rw [List.take_append_of_le_length hlength] at hc
    exact List.any_eq_false.mp hword c (List.mem_of_mem_take hc) hdigit
  simp only [afterWord?, hmarked, Bool.false_eq_true, if_false, Option.map_none]

theorem readAtom_number {chars rest : List Char} {value : Json}
    (h : readNumber? chars = some (.ok value, rest)) :
    readAtom chars = .ok (value, rest) := by
  rw [readAtom, readConstant?_of_readNumber? h, h]

theorem readAtom_constant {word : String} {value : Json}
    (h : (word, value) ∈ constants) (rest : List Char) :
    readAtom (word.toList ++ rest) = .ok (value, rest) := by
  simp only [constants, List.mem_cons, Prod.mk.injEq, List.not_mem_nil,
    or_false] at h
  rcases h with ⟨rfl, rfl⟩ | ⟨rfl, rfl⟩ | ⟨rfl, rfl⟩ | ⟨rfl, rfl⟩ | ⟨rfl, rfl⟩
    | ⟨rfl, rfl⟩ <;> rfl

end Fragments.Json
