import Fragments.Json.Reader
import Fragments.Json.Writer

namespace Fragments.Json

theorem escapeChar_cases (c : Char) :
    (∃ mark, simpleEscape? mark = some c ∧ escapeChar c = ['\\', mark]) ∨
      (c.toNat < 0x20 ∧
        escapeChar c = '\\' :: 'u' :: (Text.hex 4 c.toNat).toList) ∨
      (c ≠ '"' ∧ c ≠ '\\' ∧ ¬c.toNat < 0x20 ∧ escapeChar c = [c]) := by
  have hcode : ∀ code : Nat, c.toNat = code → c = Char.ofNat code := by
    rintro code rfl
    exact (Char.ofNat_toNat c).symm
  simp only [escapeChar, beq_iff_eq]
  split
  · next h => exact .inl ⟨'"', by rw [h]; rfl, rfl⟩
  split
  · next h => exact .inl ⟨'\\', by rw [h]; rfl, rfl⟩
  split
  · next h => exact .inl ⟨'n', by rw [h]; rfl, rfl⟩
  split
  · next h => exact .inl ⟨'r', by rw [h]; rfl, rfl⟩
  split
  · next h => exact .inl ⟨'t', by rw [h]; rfl, rfl⟩
  split
  · next h => exact .inl ⟨'b', by rw [hcode 8 h]; rfl, rfl⟩
  split
  · next h => exact .inl ⟨'f', by rw [hcode 12 h]; rfl, rfl⟩
  split
  · next h => exact .inr (.inl ⟨h, rfl⟩)
  · next hquote hbackslash _ _ _ _ _ h =>
      exact .inr (.inr ⟨hquote, hbackslash, h, rfl⟩)

theorem ne_u_of_simpleEscape?_eq {mark c : Char}
    (h : simpleEscape? mark = some c) :
    mark ≠ 'u' := by
  rintro rfl
  cases h

private theorem toList_hex_control :
    ∀ code < 0x20, (Text.hex 4 code).toList =
      ['0', '0', Nat.digitChar (code / 16), Nat.digitChar (code % 16)] := by
  decide +kernel

private theorem hexDigit?_digitChar :
    ∀ digit < 16, hexDigit? (Nat.digitChar digit) = some digit := by
  decide +kernel

theorem fourHex?_control {code : Nat} (hcode : code < 0x20) (next : Char)
    (rest : List Char) :
    fourHex? ((Text.hex 4 code).toList ++ next :: rest) =
      some (code, next :: rest) := by
  have hzero : hexDigit? '0' = some 0 := hexDigit?_digitChar 0 (by decide)
  have hhigh := hexDigit?_digitChar (code / 16) (by omega)
  have hlow := hexDigit?_digitChar (code % 16) (by omega)
  have hvalue : ((0 * 16 + 0) * 16 + code / 16) * 16 + code % 16 =
      code := by omega
  simp only [toList_hex_control code hcode, List.cons_append, List.nil_append,
    fourHex?, hzero, hhigh, hlow, hvalue, Option.bind_eq_bind, Option.bind_some]

theorem readCode_control {c : Char} (hcode : c.toNat < 0x20) (next : Char)
    (rest : List Char) :
    readCode ('u' :: ((Text.hex 4 c.toNat).toList ++ next :: rest)) =
      .ok (c, next :: rest) := by
  have hhigh : isHighSurrogate c.toNat = false := by
    simp only [isHighSurrogate, Bool.and_eq_false_iff, decide_eq_false_iff_not]
    omega
  have hvalid : c.toNat.isValidChar := c.valid
  have hchar : charOf c.toNat (next :: rest) = .ok (c, next :: rest) := by
    rw [charOf, if_pos hvalid, Char.ofNat_toNat]
  rw [readCode, List.drop_one, List.tail_cons, fourHex?_control hcode]
  simp only [hhigh, hchar]

section

variable {opening rest last more : List Char} {fuel : Nat} {c : Char}

theorem readChars_letter {mark : Char} (hmark : simpleEscape? mark = some c)
    (hread : readChars opening fuel rest = .ok (more, last)) :
    readChars opening (fuel + 1) ('\\' :: mark :: rest) =
      .ok (c :: more, last) := by
  have hne := ne_u_of_simpleEscape?_eq hmark
  rw [readChars]
  · simp only [hmark, hread]
    rfl
  · exact hne

theorem readChars_code {next : Char} (hcode : c.toNat < 0x20)
    (hread : readChars opening fuel (next :: rest) = .ok (more, last)) :
    readChars opening (fuel + 1)
        ('\\' :: 'u' :: ((Text.hex 4 c.toNat).toList ++ next :: rest)) =
      .ok (c :: more, last) := by
  rw [readChars, readCode_control hcode]
  simp only [hread, bind, Except.bind]
  rfl

theorem readChars_plain (hquote : c ≠ '"') (hbackslash : c ≠ '\\')
    (hplain : ¬c.toNat < 0x20)
    (hread : readChars opening fuel rest = .ok (more, last)) :
    readChars opening (fuel + 1) (c :: rest) = .ok (c :: more, last) := by
  rw [readChars.eq_def]
  simp only [beq_iff_eq, hquote, hbackslash, hplain, if_false, hread]
  rfl

theorem readChars_escapeChar {next : Char}
    (hread : readChars opening fuel (next :: rest) = .ok (more, last)) :
    readChars opening (fuel + 1) (escapeChar c ++ next :: rest) =
      .ok (c :: more, last) := by
  rcases escapeChar_cases c with
    ⟨mark, hmark, hwritten⟩ | ⟨hcode, hwritten⟩
      | ⟨hquote, hbackslash, hplain, hwritten⟩
  · rw [hwritten]
    exact readChars_letter hmark hread
  · rw [hwritten]
    exact readChars_code hcode hread
  · rw [hwritten]
    exact readChars_plain hquote hbackslash hplain hread

end

theorem readChars_flatMap_escapeChar (opening rest content : List Char)
    {fuel : Nat} (hfuel : content.length < fuel) :
    readChars opening fuel (content.flatMap escapeChar ++ '"' :: rest) =
      .ok (content, rest) := by
  induction content generalizing fuel with
  | nil =>
      obtain ⟨fuel, rfl⟩ := Nat.exists_eq_succ_of_ne_zero (Nat.ne_of_gt hfuel)
      rfl
  | cons c content ih =>
      obtain ⟨fuel, rfl⟩ :=
        Nat.exists_eq_succ_of_ne_zero (Nat.ne_zero_of_lt hfuel)
      have hread := ih (Nat.lt_of_succ_lt_succ hfuel)
      rw [List.flatMap_cons, List.append_assoc]
      -- What follows a character is never empty: another character, or the
      -- closing quote.
      obtain ⟨next, tail, htail⟩ :
          ∃ next tail, content.flatMap escapeChar ++ '"' :: rest =
            next :: tail :=
        List.exists_cons_of_ne_nil (by simp)
      rw [htail] at hread ⊢
      exact readChars_escapeChar hread

theorem length_le_length_flatMap_escapeChar (content : List Char) :
    content.length ≤ (content.flatMap escapeChar).length := by
  induction content with
  | nil => exact Nat.le_refl 0
  | cons c content ih =>
      have hpos : 0 < (escapeChar c).length := by
        rcases escapeChar_cases c with
          ⟨_, _, h⟩ | ⟨_, h⟩ | ⟨_, _, _, h⟩ <;> rw [h] <;>
            exact Nat.zero_lt_succ _
      rw [List.flatMap_cons, List.length_append, List.length_cons]
      omega

theorem toList_writeString (text : String) :
    (writeString text).toList =
      '"' :: (text.toList.flatMap escapeChar ++ ['"']) := by
  rw [writeString, String.toList_ofList, List.cons_append]

theorem head?_writeString (text : String) (rest : List Char) :
    ((writeString text).toList ++ rest).head? = some '"' := by
  rw [toList_writeString]
  rfl

theorem readString_writeString (text : String) (rest : List Char) :
    readString ((writeString text).toList ++ rest) = .ok (text, rest) := by
  have hlength := length_le_length_flatMap_escapeChar text.toList
  rw [toList_writeString, List.cons_append, List.append_assoc,
    List.singleton_append, readString, List.drop_one, List.tail_cons,
    readChars_flatMap_escapeChar]
  · exact congrArg (fun content => Except.ok (content, rest))
      (String.ofList_toList)
  · simp only [List.length_cons, List.length_append]
    omega

end Fragments.Json
