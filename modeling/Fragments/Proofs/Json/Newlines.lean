import Fragments.Proofs.Json.Layout

namespace Fragments

theorem Text.normaliseNewlines_of_not_mem {chars : List Char}
    (h : '\r' ∉ chars) :
    normaliseNewlines chars = chars := by
  induction chars with
  | nil => rfl
  | cons c rest ih =>
      have hne : c ≠ '\r' := fun heq => h (heq ▸ List.mem_cons_self)
      have hrest : '\r' ∉ rest := fun hmem => h (List.mem_cons_of_mem _ hmem)
      rw [normaliseNewlines, ih hrest]
      · exact fun _ heq => absurd heq hne
      · exact hne

theorem return_not_mem_toDigits (n : Nat) : '\r' ∉ Nat.toDigits 10 n := by
  intro hmem
  have hdigit := Nat.isDigit_of_mem_toDigits (by decide) (by decide) hmem
  exact absurd hdigit (by decide)

namespace Binary64

theorem mem_trimZeros {digits : List Char} {c : Char}
    (hmem : c ∈ trimZeros digits) :
    c ∈ digits ∨ c = '0' := by
  unfold trimZeros at hmem
  split at hmem
  · exact .inr (List.mem_singleton.mp hmem)
  · left
    rw [List.mem_reverse] at hmem
    exact List.mem_reverse.mp ((List.dropWhile_sublist _).subset hmem)

theorem return_not_mem_exponentText (exponent : Int) :
    '\r' ∉ exponentText exponent := by
  have hdigits := return_not_mem_toDigits exponent.natAbs
  unfold exponentText
  dsimp only
  split <;> split <;> simp [hdigits]

theorem return_not_mem_text (d : Decimal) : '\r' ∉ d.text := by
  have hdigits : '\r' ∉ trimZeros (Nat.toDigits 10 d.digits) := by
    intro hmem
    rcases mem_trimZeros hmem with hmem | heq
    · exact return_not_mem_toDigits _ hmem
    · exact absurd heq (by decide)
  have htake : ∀ count,
      '\r' ∉ (trimZeros (Nat.toDigits 10 d.digits)).take count :=
    fun count hmem => hdigits (List.mem_of_mem_take hmem)
  have hdrop : ∀ count,
      '\r' ∉ (trimZeros (Nat.toDigits 10 d.digits)).drop count :=
    fun count hmem => hdigits (List.mem_of_mem_drop hmem)
  have hexponent := return_not_mem_exponentText (d.point - 1)
  unfold Decimal.text
  dsimp only
  split
  · simp [hdigits]
  split
  · split
    · simp [hdigits]
    · simp [htake, hdrop]
  · have hpart :
        '\r' ∉ (if (trimZeros (Nat.toDigits 10 d.digits)).length = 1 then []
          else '.' :: (trimZeros (Nat.toDigits 10 d.digits)).drop 1) := by
      split
      · exact List.not_mem_nil
      · exact List.not_mem_cons_of_ne_of_not_mem (by decide) (hdrop 1)
    simp only [List.mem_append, htake, hpart, hexponent, or_self,
      not_false_eq_true]

theorem return_not_mem_signed {chars : List Char} (h : '\r' ∉ chars)
    (negative : Bool) :
    '\r' ∉ (signed negative chars).toList := by
  rw [signed, String.toList_ofList]
  cases negative with
  | false => exact h
  | true => simp [h]

end Binary64

namespace Json

private theorem return_not_mem_hex :
    ∀ code < 0x20, '\r' ∉ (Text.hex 4 code).toList := by
  decide +kernel

theorem return_not_mem_escapeChar (c : Char) : '\r' ∉ escapeChar c := by
  rcases escapeChar_cases c with
    ⟨mark, hmark, hwritten⟩ | ⟨hcode, hwritten⟩ | ⟨-, -, hplain, hwritten⟩
  · have hne : '\r' ≠ mark := by
      rintro rfl
      cases hmark
    rw [hwritten]
    simp [hne]
  · rw [hwritten]
    simp [return_not_mem_hex _ hcode]
  · have hne : '\r' ≠ c := by
      rintro rfl
      exact hplain (by decide)
    rw [hwritten]
    simp [hne]

theorem return_not_mem_writeString (text : String) :
    '\r' ∉ (writeString text).toList := by
  have hcontent : '\r' ∉ text.toList.flatMap escapeChar := by
    intro hmem
    obtain ⟨c, -, hc⟩ := List.mem_flatMap.mp hmem
    exact return_not_mem_escapeChar c hc
  rw [toList_writeString]
  simp [hcontent]

theorem return_not_mem_writeFloat (value : Binary64) :
    '\r' ∉ (writeFloat value).toList := by
  cases value with
  | nan => decide
  | infinite negative => cases negative <;> decide
  | finite negative position =>
      exact Binary64.return_not_mem_signed
        (Binary64.return_not_mem_text _) negative

theorem return_not_mem_newline (depth : Nat) :
    '\r' ∉ (newline depth).toList := by
  rw [newline, String.toList_ofList]
  simp

theorem return_not_mem_afterEntry {closing : String}
    (hclosing : '\r' ∉ closing.toList) (depth : Nat) {entries : List String}
    (hentries : ∀ entry ∈ entries, '\r' ∉ entry.toList) :
    '\r' ∉ afterEntry closing depth entries := by
  induction entries with
  | nil => simp [afterEntry, return_not_mem_newline, hclosing]
  | cons entry entries ih =>
      obtain ⟨hentry, hentries⟩ := List.forall_mem_cons.mp hentries
      simp [afterEntry, return_not_mem_newline, hentry, ih hentries]

theorem return_not_mem_layOut {opening closing : String} {bracket : Char}
    (hopening : opening.toList = [bracket]) (hbracket : '\r' ≠ bracket)
    (hclosing : '\r' ∉ closing.toList) (depth : Nat) {entries : List String}
    (hentries : ∀ entry ∈ entries, '\r' ∉ entry.toList) :
    '\r' ∉ (layOut opening closing depth entries).toList := by
  cases entries with
  | nil => simp [layOut_nil, hopening, hbracket, hclosing]
  | cons entry entries =>
      obtain ⟨hentry, hentries⟩ := List.forall_mem_cons.mp hentries
      have htext := toList_layOut_cons hopening closing depth entry entries []
      simp only [List.append_nil] at htext
      rw [htext]
      simp [hbracket, return_not_mem_newline, hentry,
        return_not_mem_afterEntry hclosing depth hentries]

theorem return_not_mem_int (n : Int) : '\r' ∉ (toString n).toList := by
  have hdigits := return_not_mem_toDigits n.natAbs
  rw [toList_toString]
  split
  · simp [hdigits]
  · exact hdigits

mutual

theorem return_not_mem_layAt : ∀ (value : Json) (depth : Nat),
    '\r' ∉ (layAt depth value).toList
  | .null, _ => show '\r' ∉ "null".toList by decide
  | .bool true, _ => show '\r' ∉ "true".toList by decide
  | .bool false, _ => show '\r' ∉ "false".toList by decide
  | .int value, _ => return_not_mem_int value
  | .float value, _ => return_not_mem_writeFloat value
  | .text content, _ => return_not_mem_writeString content
  | .array items, depth =>
      return_not_mem_layOut rfl (by decide) (by decide) depth
        (return_not_mem_layItems items (depth + 1))
  | .object entries, depth =>
      return_not_mem_layOut rfl (by decide) (by decide) depth
        (return_not_mem_layFields entries (depth + 1))

theorem return_not_mem_layItems : ∀ (items : List Json) (depth : Nat),
    ∀ entry ∈ layItems depth items, '\r' ∉ entry.toList
  | [], _ => fun _ hmem => absurd hmem List.not_mem_nil
  | item :: rest, depth =>
      List.forall_mem_cons.mpr
        ⟨return_not_mem_layAt item depth, return_not_mem_layItems rest depth⟩

theorem return_not_mem_layFields :
    ∀ (entries : List (String × Json)) (depth : Nat),
      ∀ entry ∈ layFields depth entries, '\r' ∉ entry.toList
  | [], _ => fun _ hmem => absurd hmem List.not_mem_nil
  | (key, value) :: rest, depth => by
      refine List.forall_mem_cons.mpr ⟨?_, return_not_mem_layFields rest depth⟩
      have hkey := return_not_mem_writeString key
      have hvalue := return_not_mem_layAt value depth
      have hcolon : '\r' ∉ ": ".toList := by decide
      simp only [String.toList_append, List.mem_append, hkey, hcolon,
        hvalue, or_self, not_false_eq_true]

end

end Json

end Fragments
