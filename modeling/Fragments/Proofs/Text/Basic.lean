import Fragments.Text.Blank
import Mathlib.Data.List.DropRight

namespace Fragments.Text

section

variable (p : α → Bool) (xs : List α)

theorem trimBoth_eq_rdropWhile :
    trimBoth p xs = (xs.dropWhile p).rdropWhile p := rfl

theorem trimBoth_eq_nil_iff : trimBoth p xs = [] ↔ ∀ x ∈ xs, p x = true := by
  rw [trimBoth_eq_rdropWhile,
    List.rdropWhile_eq_nil_iff, ← List.dropWhile_eq_nil_iff,
    List.dropWhile_idempotent, List.dropWhile_eq_nil_iff]

theorem trimBoth_trimBoth : trimBoth p (trimBoth p xs) = trimBoth p xs := by
  -- what is left after both sides begins like what is left after the front
  have hfront : (trimBoth p xs).dropWhile p = trimBoth p xs := by
    rw [List.dropWhile_eq_self_iff]
    intro hpos
    have hfront : trimBoth p xs <+: xs.dropWhile p := List.rdropWhile_prefix p _
    rw [hfront.getElem hpos]
    exact List.dropWhile_get_zero_not p xs (hpos.trans_le hfront.length_le)
  rw [trimBoth_eq_rdropWhile p (trimBoth p xs), hfront, trimBoth_eq_rdropWhile,
    List.rdropWhile_idempotent]

end

theorem trim_trim (text : String) : trim (trim text) = trim text := by
  rw [trim, trim, String.toList_ofList, trimBoth_trimBoth]

theorem trim_eq_empty_iff {text : String} :
    trim text = "" ↔ isBlankText text = true := by
  rw [trim, String.ofList_eq_empty_iff, trimBoth_eq_nil_iff, isBlankText,
    List.all_eq_true]

def notAfter (one other : String) : Bool := !decide (other < one)

theorem notAfter_iff {one other : String} :
    notAfter one other = true ↔ one ≤ other := by
  rw [notAfter, Bool.not_eq_true', decide_eq_false_iff_not, String.not_lt]

theorem pairwise_le_mergeSort (texts : List String) :
    (texts.mergeSort notAfter).Pairwise (· ≤ ·) := by
  have htrans (one other third : String) (hone : notAfter one other = true)
      (hother : notAfter other third = true) : notAfter one third = true :=
    notAfter_iff.mpr
      (String.le_trans (notAfter_iff.mp hone) (notAfter_iff.mp hother))
  have htotal (one other : String) :
      (notAfter one other || notAfter other one) = true := by
    rw [Bool.or_eq_true, notAfter_iff, notAfter_iff]
    exact String.le_total one other
  exact (List.pairwise_mergeSort htrans htotal texts).imp notAfter_iff.mp

theorem pairwise_lt_mergeSort {texts : List String} (hdistinct : texts.Nodup) :
    (texts.mergeSort notAfter).Pairwise (· < ·) := by
  have hkept : (texts.mergeSort notAfter).Nodup :=
    (List.mergeSort_perm texts notAfter).nodup_iff.mpr hdistinct
  exact ((pairwise_le_mergeSort texts).and hkept).imp fun hboth =>
    Std.lt_of_le_of_ne hboth.1 hboth.2

theorem mergeSort_eq_of_perm {texts others : List String}
    (hperm : texts.Perm others) :
    texts.mergeSort notAfter = others.mergeSort notAfter := by
  have hsorted : (texts.mergeSort notAfter).Perm (others.mergeSort notAfter) :=
    (List.mergeSort_perm texts notAfter).trans
      (hperm.trans (List.mergeSort_perm others notAfter).symm)
  exact hsorted.eq_of_pairwise (fun _ _ _ _ => String.le_antisymm)
    (pairwise_le_mergeSort texts) (pairwise_le_mergeSort others)

end Fragments.Text
