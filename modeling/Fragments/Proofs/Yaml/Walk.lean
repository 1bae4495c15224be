import Fragments.Yaml.Style
import Mathlib.Tactic.Tauto

namespace Fragments.Yaml

/-- What is claimed of all characters of a list is checked for them alone, not
for every character. -/
instance (priority := 2000) decidableForallMem (chars : List Char)
    (p : Char → Prop) [DecidablePred p] : Decidable (∀ c ∈ chars, p c) :=
  chars.decidableBAll p

/-- The column behind a text, which is given in reverse. -/
def columnOf (out : List Char) : Nat :=
  (out.takeWhile fun c => !isBreak c).length

/-- A character that counts as one in the column and is not joined with the next
to one break. -/
def Tame (c : Char) : Prop := c ≠ '\r' ∧ c.toNat ≠ 0xFEFF

instance (c : Char) : Decidable (Tame c) := inferInstanceAs (Decidable (_ ∧ _))

theorem columnOf_cons_of_break {c : Char} (hbreak : isBreak c = true)
    (out : List Char) :
    columnOf (c :: out) = 0 := by
  simp [columnOf, hbreak]

theorem columnOf_cons {c : Char} (hbreak : isBreak c = false)
    (out : List Char) :
    columnOf (c :: out) = columnOf out + 1 := by
  simp [columnOf, hbreak]

theorem columnOf_append {chars : List Char}
    (hbreaks : ∀ c ∈ chars, isBreak c = false) (out : List Char) :
    columnOf (chars ++ out) = columnOf out + chars.length := by
  unfold columnOf
  rw [List.takeWhile_append_of_pos (by simpa using hbreaks), List.length_append,
    Nat.add_comm]

@[simp] theorem columnOf_nil : columnOf [] = 0 := rfl

@[simp] theorem columnOf_newline (out : List Char) :
    columnOf ('\n' :: out) = 0 := rfl

@[simp] theorem columnOf_spaces (count : Nat) (out : List Char) :
    columnOf (List.replicate count ' ' ++ out) = columnOf out + count := by
  rw [columnOf_append
    (by rintro c hmem; rw [List.eq_of_mem_replicate hmem]; rfl),
    List.length_replicate]

theorem isBreak_of_style {c : Char} (hbreak : Style.isBreak c = true) :
    isBreak c = true := by
  simp only [Style.isBreak, isBreak, Bool.or_eq_true] at hbreak ⊢
  tauto

theorem tame_of_isBreak {c : Char} (hbreak : Style.isBreak c = true) :
    Tame c := by
  simp only [Style.isBreak, Bool.or_eq_true, beq_iff_eq] at hbreak
  constructor
  · rintro rfl
    simp at hbreak
  · intro hmark
    rcases hbreak with ((rfl | hbreak) | hbreak) | hbreak
    · exact absurd hmark (by decide)
    all_goals omega

theorem isBreak_eq {c : Char} (htame : Tame c) :
    isBreak c = Style.isBreak c := by
  simp [isBreak, Style.isBreak, beq_eq_false_iff_ne.mpr htame.1]

namespace Style

theorem isSpecial_eq_false {c : Char} (hplain : isSpecial c = false) :
    c = '\n' ∨ (0x20 ≤ c.toNat ∧ c.toNat ≤ 0x7E) ∨
      ((c.toNat = 0x85 ∨ (0xA0 ≤ c.toNat ∧ c.toNat ≤ 0xD7FF) ∨
        (0xE000 ≤ c.toNat ∧ c.toNat ≤ 0xFFFD) ∨
          (0x10000 ≤ c.toNat ∧ c.toNat < 0x10FFFF)) ∧
        c.toNat ≠ 0xFEFF) := by
  simp only [isSpecial, Bool.and_eq_false_iff, Bool.not_eq_false',
    Bool.or_eq_true, Bool.and_eq_true, beq_iff_eq, decide_eq_true_eq,
    bne_iff_ne] at hplain
  tauto

theorem tame_of_isSpecial {c : Char} (hplain : isSpecial c = false) :
    Tame c := by
  have hcases := isSpecial_eq_false hplain
  constructor
  · rintro rfl
    exact absurd hplain (by decide)
  · intro hmark
    rcases hcases with rfl | hcases | hcases
    · exact absurd hmark (by decide)
    · omega
    · exact hcases.2 hmark

theorem endsToken_eq {c : Char} (hplain : isSpecial c = false)
    (hbreak : isBreak c = false) :
    endsToken c = (c == ' ') := by
  have htab : (c == '\t') = false := by
    rw [beq_eq_false_iff_ne]
    rintro rfl
    exact absurd hplain (by decide)
  have hend : (c == endMark) = false := by
    rw [beq_eq_false_iff_ne]
    rintro rfl
    exact absurd hplain (by decide)
  have hsame : Yaml.isBreak c = false :=
    (isBreak_eq (tame_of_isSpecial hplain)).trans hbreak
  simp [endsToken, endsWord, endsLine, htab, hend, hsame]

end Style

/-- What the reader takes a break for: the one of another system counts as a
line feed. -/
def heardBreak (c : Char) : Char := if c.toNat = 0x85 then '\n' else c

namespace Cursor

/-- The cursor between a text, given in reverse, and the rest of it. -/
def behind (out rest : List Char) : Cursor :=
  ⟨rest, out.length, out.countP isBreak, columnOf out⟩

@[simp] theorem behind_rest (out rest : List Char) :
    (behind out rest).rest = rest := rfl

@[simp] theorem behind_index (out rest : List Char) :
    (behind out rest).index = out.length := rfl

@[simp] theorem behind_line (out rest : List Char) :
    (behind out rest).line = out.countP isBreak := rfl

@[simp] theorem behind_column (out rest : List Char) :
    (behind out rest).column = columnOf out := rfl

theorem peek_behind (out rest : List Char) (offset : Nat) :
    (behind out rest).peek offset = (rest.drop offset).headD endMark := rfl

theorem advance_behind {c : Char} (htame : Tame c) (out rest : List Char) :
    (behind out (c :: rest)).advance = behind (c :: out) rest := by
  have hreturn : (c == '\r') = false := by simpa using htame.1
  have hmark : (c.toNat == 0xFEFF) = false := by simpa using htame.2
  cases hbreak : isBreak c with
  | true =>
      simp [advance, behind, hbreak, hreturn, columnOf_cons_of_break hbreak]
  | false => simp [advance, behind, hbreak, hmark, columnOf_cons hbreak]

theorem skip_behind {chars : List Char} (htame : ∀ c ∈ chars, Tame c)
    (out rest : List Char) :
    (behind out (chars ++ rest)).skip chars.length =
      behind (chars.reverse ++ out) rest := by
  induction chars generalizing out with
  | nil => rfl
  | cons c more ih =>
      rw [List.length_cons, List.cons_append, skip,
        advance_behind (htame c List.mem_cons_self),
        ih (fun d hd => htame d (List.mem_cons_of_mem c hd))]
      simp

end Cursor

namespace Scan

open Cursor

variable {out rest : List Char}

theorem bind_of {step : Scan α} {next : α → Scan β} {cursor after : Cursor}
    {value : α} (hstep : step cursor = .ok (value, after)) :
    (step >>= next) cursor = next value after := by
  show step cursor >>= (fun found => next found.1 found.2) = _
  rw [hstep]
  rfl

theorem get_apply (cursor : Cursor) :
    (get : Scan Cursor) cursor = .ok (cursor, cursor) := rfl

theorem peek_apply (offset : Nat) (cursor : Cursor) :
    peek offset cursor = .ok (cursor.peek offset, cursor) := rfl

theorem column_apply (cursor : Cursor) :
    column cursor = .ok (cursor.column, cursor) := rfl

theorem remaining_apply (cursor : Cursor) :
    remaining cursor = .ok (cursor.rest.length, cursor) := rfl

theorem peek_behind (offset : Nat) :
    peek offset (behind out rest) =
      .ok ((rest.drop offset).headD endMark, behind out rest) := rfl

theorem skip_behind {chars : List Char} (htame : ∀ c ∈ chars, Tame c) :
    skip chars.length (behind out (chars ++ rest)) =
      .ok ((), behind (chars.reverse ++ out) rest) := by
  rw [skip, Cursor.skip_behind htame]

theorem skip_one {c : Char} (htame : Tame c) :
    skip 1 (behind out (c :: rest)) = .ok ((), behind (c :: out) rest) := by
  rw [skip, Cursor.skip, advance_behind htame]
  rfl

theorem skip_two {c d : Char} (hc : Tame c) (hd : Tame d) :
    skip 2 (behind out (c :: d :: rest)) =
      .ok ((), behind (d :: c :: out) rest) := by
  rw [skip, Cursor.skip, advance_behind hc, Cursor.skip, advance_behind hd]
  rfl

theorem run_behind {p : Char → Bool} {found : List Char}
    (hfound : ∀ c ∈ found, p c = true) (htame : ∀ c ∈ found, Tame c)
    (hrest : ∀ c ∈ rest.head?, p c = false) :
    run p (behind out (found ++ rest)) =
      .ok (found, behind (found.reverse ++ out) rest) := by
  have htake : (found ++ rest).takeWhile p = found := by
    rw [List.takeWhile_append_of_pos hfound]
    cases rest with
    | nil => simp
    | cons c more => simp [hrest c rfl]
  simp only [run, behind_rest, htake, Cursor.skip_behind htame]

theorem run_spaces (count : Nat) (hrest : ∀ c ∈ rest.head?, c ≠ ' ') :
    run (· == ' ') (behind out (List.replicate count ' ' ++ rest)) =
      .ok (List.replicate count ' ',
        behind (List.replicate count ' ' ++ out) rest) := by
  have hrun : run (· == ' ') (behind out (List.replicate count ' ' ++ rest)) =
      _ :=
    run_behind (fun c hmem => by rw [List.eq_of_mem_replicate hmem]; rfl)
    (fun c hmem => by rw [List.eq_of_mem_replicate hmem]; decide)
    (fun c hc => by simpa using hrest c hc)
  rwa [List.reverse_replicate] at hrun

theorem skipSpaces_behind (count : Nat) (hrest : ∀ c ∈ rest.head?, c ≠ ' ') :
    skipSpaces (behind out (List.replicate count ' ' ++ rest)) =
      .ok ((), behind (List.replicate count ' ' ++ out) rest) := by
  rw [skipSpaces, bind_of (run_spaces count hrest)]
  rfl

theorem skipComment_behind (hrest : ∀ c ∈ rest.head?, c ≠ '#') :
    skipComment (behind out rest) = .ok ((), behind out rest) := by
  have hpeek : ((rest.drop 0).headD endMark == '#') = false := by
    cases rest with
    | nil => rfl
    | cons c more => simpa using hrest c rfl
  rw [skipComment, bind_of (peek_behind 0), hpeek]
  rfl

theorem lineBreak_none (hrest : ∀ c ∈ rest.head?, isBreak c = false) :
    lineBreak (behind out rest) = .ok (none, behind out rest) := by
  cases rest with
  | nil => rfl
  | cons c more =>
      have hbreak := hrest c rfl
      simp only [isBreak, Bool.or_eq_false_iff, beq_eq_false_iff_ne] at hbreak
      obtain ⟨⟨⟨⟨hfeed, hreturn⟩, hnext⟩, hline⟩, hparagraph⟩ := hbreak
      rw [lineBreak, bind_of (peek_behind 0), bind_of (peek_behind 1)]
      simp [hfeed, hreturn, hnext, isBreak, hline, hparagraph]
      rfl

theorem lineBreak_behind {c : Char} (hbreak : Style.isBreak c = true) :
    lineBreak (behind out (c :: rest)) =
      .ok (some (heardBreak c), behind (c :: out) rest) := by
  have htame := tame_of_isBreak hbreak
  rw [lineBreak, bind_of (peek_behind 0), bind_of (peek_behind 1)]
  simp only [List.drop_zero, List.headD_cons, beq_eq_false_iff_ne.mpr htame.1,
    Bool.false_and, Bool.or_false, if_false, Bool.false_eq_true]
  by_cases hfeed : c = '\n' ∨ c.toNat = 0x85
  · rw [if_pos (by simpa using hfeed), bind_of (skip_one htame)]
    have hheard : heardBreak c = '\n' := by
      rcases hfeed with rfl | hnext
      · rfl
      · rw [heardBreak, if_pos hnext]
    rw [hheard]
    rfl
  · rw [if_neg (by simpa using hfeed), if_pos (isBreak_of_style hbreak),
      bind_of (skip_one htame), heardBreak, if_neg fun hnext =>
        hfeed (.inr hnext)]
    rfl

theorem atMark_behind {mark : Char} (hmark : mark ≠ endMark)
    (hrest : ¬List.replicate 3 mark <+: rest) :
    (behind out rest).atMark mark = false := by
  rw [Bool.eq_false_iff]
  intro hat
  simp only [Cursor.atMark, Cursor.peek_behind, Bool.and_eq_true, beq_iff_eq]
    at hat
  obtain ⟨⟨⟨hfirst, hsecond⟩, hthird⟩, -⟩ := hat
  match rest with
  | [] => exact hmark hfirst.symm
  | [_] => exact hmark hsecond.symm
  | [_, _] => exact hmark hthird.symm
  | a :: b :: c :: more =>
      obtain ⟨rfl, rfl, rfl⟩ : a = mark ∧ b = mark ∧ c = mark :=
        ⟨hfirst, hsecond, hthird⟩
      exact hrest ⟨more, rfl⟩

/-- A text that does not start like the end of a document. -/
def Unmarked (rest : List Char) : Prop :=
  ¬List.replicate 3 '-' <+: rest ∧ ¬List.replicate 3 '.' <+: rest

theorem unmarked_spaces {count : Nat} (hcount : 0 < count) (rest : List Char) :
    Unmarked (List.replicate count ' ' ++ rest) := by
  obtain ⟨less, rfl⟩ :=
    Nat.exists_eq_succ_of_ne_zero (Nat.pos_iff_ne_zero.mp hcount)
  constructor <;> rintro ⟨_, heq⟩ <;> simp [List.replicate_succ] at heq

theorem unmarked_cons {c : Char} (hdash : c ≠ '-') (hdot : c ≠ '.')
    (rest : List Char) :
    Unmarked (c :: rest) := by
  constructor
  · rintro ⟨_, ⟨⟩⟩
    exact hdash rfl
  · rintro ⟨_, ⟨⟩⟩
    exact hdot rfl

theorem unmarked_break {c : Char} (hbreak : Style.isBreak c = true)
    (rest : List Char) :
    Unmarked (c :: rest) := by
  refine unmarked_cons ?_ ?_ rest <;> rintro rfl <;>
    exact absurd hbreak (by decide)

theorem atSeparator_behind (hrest : Unmarked rest) :
    atSeparator (behind out rest) = .ok (false, behind out rest) := by
  rw [atSeparator, Cursor.atSeparator, atMark_behind (by decide) hrest.1,
    atMark_behind (by decide) hrest.2]
  rfl

end Scan

end Fragments.Yaml
