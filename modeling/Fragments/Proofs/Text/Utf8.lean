import Fragments.Proofs.Data.Outcome
import Fragments.Text.Utf8
import Mathlib.Logic.Basic

namespace Fragments.Utf8

/-- Whether a byte carries six more bits of a character. -/
def Continues (byte : UInt8) : Prop := 0x80 ≤ byte.toNat ∧ byte.toNat < 0xC0

section

variable {a b c d : UInt8}

theorem isContinuation_iff : isContinuation b = true ↔ Continues b := by
  simp only [isContinuation, Bool.and_eq_true, decide_eq_true_eq]
  exact Iff.rfl

theorem mayFollow_iff :
    mayFollow a b = true ↔
      Continues b ∧ (a.toNat = 0xE0 → 0xA0 ≤ b.toNat) ∧
        (a.toNat = 0xED → b.toNat < 0xA0) ∧ (a.toNat = 0xF0 → 0x90 ≤ b.toNat) ∧
          (a.toNat = 0xF4 → b.toNat < 0x90) := by
  simp only [mayFollow, Bool.and_eq_true, isContinuation_iff, Bool.or_eq_true,
    bne_iff_ne, ne_eq, decide_eq_true_eq, ← UInt8.toNat_inj,
    UInt8.le_iff_toNat_le, UInt8.lt_iff_toNat_lt, and_assoc, ← imp_iff_not_or]
  exact Iff.rfl

variable (position : Nat) (rest : List UInt8)

theorem decodeFrom_one (ha : a.toNat < 0x80) :
    decodeFrom position (a :: rest) =
      (decodeFrom (position + 1) rest).map (Char.ofNat a.toNat :: ·) := by
  rw [decodeFrom.eq_def]
  exact if_pos ha

private theorem lead (hlow : 0xC2 ≤ a.toNat) (hhigh : a.toNat ≤ 0xF4) :
    ¬a < 0x80 ∧ (decide (a < 0xC2) || decide (0xF4 < a)) = false := by
  simp only [UInt8.lt_iff_toNat_lt, Bool.or_eq_false_iff,
    decide_eq_false_iff_not]
  exact ⟨Nat.not_lt.mpr (Nat.le_trans (by decide) hlow), Nat.not_lt.mpr hlow,
    Nat.not_lt.mpr hhigh⟩

theorem decodeFrom_two (hlow : 0xC2 ≤ a.toNat) (hhigh : a.toNat < 0xE0)
    (hb : Continues b) :
    decodeFrom position (a :: b :: rest) =
      (decodeFrom (position + 2) rest).map
        (Char.ofNat (a.toNat % 32 * 64 + payload b) :: ·) := by
  have hmay : mayFollow a b = true :=
    mayFollow_iff.mpr ⟨hb, by omega, by omega, by omega, by omega⟩
  have hlead := lead hlow (by omega)
  have hshort : a < 0xE0 := hhigh
  rw [decodeFrom.eq_def]
  simp only [hmay, hlead, hshort]
  rfl

theorem decodeFrom_three (hlow : 0xE0 ≤ a.toNat) (hhigh : a.toNat < 0xF0)
    (hmay : mayFollow a b = true) (hc : Continues c) :
    decodeFrom position (a :: b :: c :: rest) =
      (decodeFrom (position + 3) rest).map
        (Char.ofNat ((a.toNat % 16 * 64 + payload b) * 64 + payload c) ::
          ·) := by
  have hlead := lead (show 0xC2 ≤ a.toNat by omega) (by omega)
  have hlong : ¬a < 0xE0 := Nat.not_lt.mpr hlow
  have hshort : a < 0xF0 := hhigh
  rw [decodeFrom.eq_def]
  simp only [hmay, hlead, hlong, hshort, isContinuation_iff.mpr hc]
  rfl

theorem decodeFrom_four (hlow : 0xF0 ≤ a.toNat) (hhigh : a.toNat ≤ 0xF4)
    (hmay : mayFollow a b = true) (hc : Continues c) (hd : Continues d) :
    decodeFrom position (a :: b :: c :: d :: rest) =
      (decodeFrom (position + 4) rest).map
        (Char.ofNat (((a.toNat % 8 * 64 + payload b) * 64 + payload c) * 64 +
          payload d) ::
          ·) := by
  have hlead := lead (show 0xC2 ≤ a.toNat by omega) hhigh
  have hlong : ¬a < 0xE0 := Nat.not_lt.mpr (Nat.le_trans (by decide) hlow)
  have hlonger : ¬a < 0xF0 := Nat.not_lt.mpr hlow
  rw [decodeFrom.eq_def]
  simp only [hmay, hlead, hlong, hlonger, isContinuation_iff.mpr hc,
    isContinuation_iff.mpr hd]
  rfl

end

private theorem toNat_byte {n : Nat} (hn : n < 256) :
    (UInt8.ofNat n).toNat = n := by
  rw [UInt8.toNat_ofNat', Nat.mod_eq_of_lt hn]

theorem utf8EncodeChar_eq (c : Char) :
    String.utf8EncodeChar c =
      if c.toNat < 0x80 then [UInt8.ofNat c.toNat]
      else if c.toNat < 0x800 then
        [UInt8.ofNat (0xC0 + c.toNat / 64), UInt8.ofNat (0x80 + c.toNat % 64)]
      else if c.toNat < 0x10000 then
        [UInt8.ofNat (0xE0 + c.toNat / 4096),
          UInt8.ofNat (0x80 + c.toNat / 64 % 64),
          UInt8.ofNat (0x80 + c.toNat % 64)]
      else
        [UInt8.ofNat (0xF0 + c.toNat / 262144),
          UInt8.ofNat (0x80 + c.toNat / 4096 % 64),
          UInt8.ofNat (0x80 + c.toNat / 64 % 64),
          UInt8.ofNat (0x80 + c.toNat % 64)] := by
  have hbound : c.toNat < 0x110000 := by
    rcases c.valid with hlow | hhigh
    · exact Nat.lt_trans hlow (by decide)
    · exact hhigh.2
  have heq : c.val.toNat = c.toNat := rfl
  unfold String.utf8EncodeChar
  simp only [heq]
  generalize c.toNat = v at *
  by_cases hone : v < 0x80
  · rw [if_pos (by omega), if_pos hone]
  · rw [if_neg (by omega), if_neg hone]
    by_cases htwo : v < 0x800
    · rw [if_pos (by omega), if_pos htwo, show v / 64 % 0x20 + 0xC0 =
        0xC0 + v / 64 by omega, Nat.add_comm (v % 0x40)]
    · rw [if_neg (by omega), if_neg htwo]
      by_cases hthree : v < 0x10000
      · rw [if_pos (by omega), if_pos hthree,
          show v / 4096 % 0x10 + 0xE0 = 0xE0 + v / 4096 by
            omega, Nat.add_comm (v % 0x40),
          Nat.add_comm (v / 64 % 0x40)]
      · rw [if_neg (by omega), if_neg hthree,
          show v / 262144 % 0x08 + 0xF0 = 0xF0 + v / 262144 by
            omega, Nat.add_comm (v % 0x40),
          Nat.add_comm (v / 64 % 0x40), Nat.add_comm (v / 4096 % 0x40)]

private theorem continues_ofNat {n : Nat} (hn : n < 64) :
    Continues (UInt8.ofNat (0x80 + n)) := by
  rw [Continues, toNat_byte (by omega)]
  omega

private theorem payload_ofNat {n : Nat} (hn : n < 64) :
    payload (UInt8.ofNat (0x80 + n)) = n := by
  rw [payload, toNat_byte (by omega)]
  omega

theorem decodeFrom_utf8EncodeChar (position : Nat) (c : Char)
    (rest : List UInt8) :
    ∃ next, decodeFrom position (String.utf8EncodeChar c ++ rest) =
      (decodeFrom next rest).map (c :: ·) := by
  have hvalid : c.toNat < 0xD800 ∨ 0xDFFF < c.toNat ∧
      c.toNat < 0x110000 := c.valid
  have hchar : ∀ n, n = c.toNat → Char.ofNat n = c := fun n hn => by
    rw [hn, Char.ofNat_toNat]
  rw [utf8EncodeChar_eq]
  generalize c.toNat = v at *
  have hlast := continues_ofNat (n := v % 64) (by omega)
  have hmiddle := continues_ofNat (n := v / 64 % 64) (by omega)
  have hthird := continues_ofNat (n := v / 4096 % 64) (by omega)
  split
  · next hone =>
      refine ⟨position + 1, ?_⟩
      have hbyte : (UInt8.ofNat v).toNat = v := toNat_byte (by omega)
      rw [List.singleton_append, decodeFrom_one position rest (by omega), hbyte,
        hchar v rfl]
  · split
    · next hone htwo =>
        refine ⟨position + 2, ?_⟩
        have hbyte : (UInt8.ofNat (0xC0 + v / 64)).toNat = 0xC0 + v / 64 :=
          toNat_byte (by omega)
        rw [List.cons_append, List.cons_append, List.nil_append,
          decodeFrom_two position rest (by omega) (by omega) hlast,
          payload_ofNat (by omega), hbyte, hchar _ (by omega)]
    · split
      · next hone htwo hthree =>
          refine ⟨position + 3, ?_⟩
          have hbyte : (UInt8.ofNat (0xE0 + v / 4096)).toNat =
              0xE0 + v / 4096 :=
            toNat_byte (by omega)
          have hsecond : (UInt8.ofNat (0x80 + v / 64 % 64)).toNat =
              0x80 + v / 64 % 64 :=
            toNat_byte (by omega)
          have hmay := (mayFollow_iff (a := UInt8.ofNat (0xE0 + v / 4096))).mpr
            ⟨hmiddle, by omega, by omega, by omega, by omega⟩
          simp only [List.cons_append, List.nil_append]
          rw [decodeFrom_three position rest (by omega) (by omega) hmay hlast,
            payload_ofNat (by omega), payload_ofNat (by omega), hbyte,
            hchar _ (by omega)]
      · next hone htwo hthree =>
          refine ⟨position + 4, ?_⟩
          have hbyte : (UInt8.ofNat (0xF0 + v / 262144)).toNat =
              0xF0 + v / 262144 :=
            toNat_byte (by omega)
          have hsecond : (UInt8.ofNat (0x80 + v / 4096 % 64)).toNat =
              0x80 + v / 4096 % 64 :=
            toNat_byte (by omega)
          have hmay :=
            (mayFollow_iff (a := UInt8.ofNat (0xF0 + v / 262144))).mpr
              ⟨hthird, by omega, by omega, by omega, by omega⟩
          simp only [List.cons_append, List.nil_append]
          rw [decodeFrom_four position rest (by omega)
            (by omega) hmay hmiddle hlast, payload_ofNat (by omega),
            payload_ofNat (by omega), payload_ofNat (by omega), hbyte,
            hchar _ (by omega)]

theorem decodeFrom_encode (position : Nat) (chars : List Char) :
    decodeFrom position (encode chars) = .ok chars := by
  induction chars generalizing position with
  | nil => rfl
  | cons c rest ih =>
      obtain ⟨next, hnext⟩ := decodeFrom_utf8EncodeChar position c (encode rest)
      rw [encode, List.flatMap_cons]
      exact hnext.trans (by rw [ih]; rfl)

theorem decode_encode (chars : List Char) : decode (encode chars) = .ok chars :=
  decodeFrom_encode 0 chars

section

variable {a b c d : UInt8}

end

end Fragments.Utf8
