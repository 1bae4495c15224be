import Fragments.Proofs.Yaml.Pens
import Fragments.Proofs.Yaml.Runs
import Fragments.Yaml.ScalarText

namespace Fragments.Yaml

open Cursor Scan

/-- What a step between quotes reads, given the character it starts with. -/
def quotedPiece (double : Bool) (c : Char) : Scan (List Char) := do
  let next ← peek 1
  if isQuotedPlain c then run isQuotedPlain
  else if c == '\'' && !double && next == '\'' then do
    skip 2
    pure ['\'']
  else if (c == '\'' && double) || ((c == '"' || c == '\\') && !double) then do
    skip 1
    pure [c]
  else if c == '\\' then scanEscape
  else if c == '\'' || c == '"' then pure []
  else scanQuotedBlanks

theorem scanQuotedBody_succ (double : Bool) (fuel : Nat) :
    scanQuotedBody double (fuel + 1) = (do
      let c ← peek 0
      let piece ← quotedPiece double c
      if (c == '\'' && !double && piece.isEmpty) ||
        (c == '"' && double) then pure []
      else do
        let rest ← scanQuotedBody double fuel
        pure (piece ++ rest)) := by
  funext cursor
  rw [scanQuotedBody, bind_of (peek_apply 0 cursor),
    bind_of (peek_apply 0 cursor), bind_of (peek_apply 1 cursor), quotedPiece]
  rw [bind_assoc, bind_of (peek_apply 1 cursor)]
  repeat' split
  all_goals simp only [bind_assoc, pure_bind]

/-- From a place between quotes, the text up to the closing ones, which stand at
`last`. -/
def Body (double : Bool) (cursor : Cursor) (text : List Char)
    (last : Cursor) : Prop :=
  ∀ fuel, cursor.rest.length < fuel →
    scanQuotedBody double fuel cursor = .ok (text, last)

variable {double : Bool} {c : Char} {out rest piece text : List Char}
  {after last : Cursor}

theorem quotedPiece_apply (double : Bool) (c : Char) (cursor : Cursor) :
    quotedPiece double c cursor =
      (if isQuotedPlain c then run isQuotedPlain
      else if c == '\'' && !double && cursor.peek 1 == '\'' then do
        skip 2
        pure ['\'']
      else if (c == '\'' && double) ||
      ((c == '"' || c == '\\') && !double) then do
        skip 1
        pure [c]
      else if c == '\\' then scanEscape
      else if c == '\'' || c == '"' then pure []
      else scanQuotedBlanks) cursor := rfl

theorem scanQuotedBody_piece (fuel : Nat)
    (hgoes : ((c == '\'' && !double && piece.isEmpty) || (c == '"' && double)) =
      false)
    (hpiece : quotedPiece double c (behind out (c :: rest)) =
      .ok (piece, after)) :
    scanQuotedBody double (fuel + 1) (behind out (c :: rest)) =
      (scanQuotedBody double fuel after).map fun found =>
        (piece ++ found.1, found.2) := by
  rw [scanQuotedBody_succ, bind_of (peek_behind 0), List.drop_zero,
    List.headD_cons, bind_of hpiece, hgoes]
  show (scanQuotedBody double fuel after >>= _) = _
  cases scanQuotedBody double fuel after <;> rfl

namespace Body

theorem step
    (hgoes : ((c == '\'' && !double && piece.isEmpty) || (c == '"' && double)) =
      false) (hpiece :
      quotedPiece double c (behind out (c :: rest)) = .ok (piece, after))
    (hless : after.rest.length ≤ rest.length)
    (hbody : Body double after text last) :
    Body double (behind out (c :: rest)) (piece ++ text) last := by
  rintro (_ | fuel) hfuel
  · omega
  · simp only [behind_rest, List.length_cons] at hfuel
    rw [scanQuotedBody_piece fuel hgoes hpiece, hbody fuel (by omega)]
    rfl

theorem close {quote : Char}
    (hcloses : (quote == '\'' && !double || quote == '"' && double) = true)
    (hpiece : quotedPiece double quote (behind out (quote :: rest)) =
      .ok ([], behind out (quote :: rest))) :
    Body double (behind out (quote :: rest)) []
      (behind out (quote :: rest)) := by
  rintro (_ | fuel) hfuel
  · omega
  · rw [scanQuotedBody_succ, bind_of (peek_behind 0), List.drop_zero,
      List.headD_cons, bind_of hpiece, List.isEmpty_nil, Bool.and_true,
      if_pos hcloses]
    rfl

theorem close_single (hrest : ∀ c ∈ rest.head?, c ≠ '\'') :
    Body false (behind out ('\'' :: rest)) [] (behind out ('\'' :: rest)) := by
  have hnext : (behind out ('\'' :: rest)).peek 1 ≠ '\'' := by
    cases rest with
    | nil => exact (by decide : endMark ≠ '\'')
    | cons c more => exact hrest c rfl
  refine close rfl ?_
  rw [quotedPiece_apply, if_neg (by decide), if_neg (by simpa using hnext),
    if_neg (by decide), if_neg (by decide), if_pos (by decide)]
  rfl

theorem close_double :
    Body true (behind out ('"' :: rest)) [] (behind out ('"' :: rest)) := by
  refine close rfl ?_
  rw [quotedPiece_apply, if_neg (by decide), if_neg (by simp),
    if_neg (by decide), if_neg (by decide), if_pos (by decide)]
  rfl

theorem plain (hplain : isQuotedPlain c = true) (htame : Tame c)
    (hbody : Body double (behind (c :: out) rest) text last) :
    Body double (behind out (c :: rest)) (c :: text) last := by
  have hgoes {c : Char} (hplain : isQuotedPlain c = true) (piece : List Char) :
      ((c == '\'' && !double && piece.isEmpty) || (c == '"' && double)) =
        false := by
    simp only [isQuotedPlain, Bool.not_eq_true', Bool.or_eq_false_iff] at hplain
    simp [hplain.1.1.1.1.1, hplain.1.1.1.1.2]
  have hpiece {c : Char} (hplain : isQuotedPlain c = true) (cursor : Cursor) :
      quotedPiece double c cursor = run isQuotedPlain cursor := by
    rw [quotedPiece_apply, if_pos hplain]
  have hrun : run isQuotedPlain (behind out (c :: rest)) =
      .ok (c :: rest.takeWhile isQuotedPlain,
        (behind (c :: out) rest).skip
          (rest.takeWhile isQuotedPlain).length) := by
    simp only [run, behind_rest, List.takeWhile_cons, hplain, if_true,
      List.length_cons, Cursor.skip, advance_behind htame]
  cases rest with
  | nil =>
      exact hbody.step (hgoes hplain _) ((hpiece hplain _).trans hrun)
        (Nat.le_refl _)
  | cons d others =>
      cases hnext : isQuotedPlain d with
      | false =>
          rw [List.takeWhile_cons, if_neg (by simp [hnext])] at hrun
          exact hbody.step (hgoes hplain _) ((hpiece hplain _).trans hrun)
            (Nat.le_refl _)
      | true =>
          -- the run goes on, so the rest is read in the same step
          rintro (_ | fuel) hfuel
          · omega
          · have hlater := hbody (fuel + 1) (by simp at hfuel ⊢; omega)
            have hrest : run isQuotedPlain (behind (c :: out) (d :: others)) =
                .ok ((d :: others).takeWhile isQuotedPlain,
                  (behind (c :: out) (d :: others)).skip
                    ((d :: others).takeWhile isQuotedPlain).length) := rfl
            rw [scanQuotedBody_piece fuel (hgoes hnext _)
              ((hpiece hnext _).trans hrest)] at hlater
            rw [scanQuotedBody_piece fuel (hgoes hplain _)
              ((hpiece hplain _).trans hrun)]
            cases hfound :
              scanQuotedBody double fuel
                ((behind (c :: out) (d :: others)).skip
                  ((d :: others).takeWhile isQuotedPlain).length) with
            | error trouble =>
                rw [hfound] at hlater
                cases hlater
            | ok found =>
                rw [hfound] at hlater
                cases hlater
                rfl

theorem doubled
    (hbody : Body false (behind ('\'' :: '\'' :: out) rest) text last) :
    Body false (behind out ('\'' :: '\'' :: rest)) (['\''] ++ text) last := by
  refine Body.step rfl ?_ (by simp) hbody
  rw [quotedPiece_apply, if_neg (by decide),
    if_pos (by simp [Cursor.peek_behind])]
  exact (bind_of (skip_two (by decide) (by decide))).trans rfl

theorem other (hother : (c = '\'' ∧ double = true) ∨
    ((c = '"' ∨ c = '\\') ∧ double = false))
    (hbody : Body double (behind (c :: out) rest) text last) :
    Body double (behind out (c :: rest)) ([c] ++ text) last := by
  refine Body.step ?_ ?_ (Nat.le_refl _) hbody
  · rcases hother with ⟨rfl, rfl⟩ | ⟨rfl | rfl, rfl⟩ <;> rfl
  · rw [quotedPiece_apply, if_neg ?_, if_neg ?_, if_pos ?_]
    · refine (bind_of (skip_one ?_)).trans rfl
      rcases hother with ⟨rfl, rfl⟩ | ⟨rfl | rfl, rfl⟩ <;> decide
    all_goals
      rcases hother with ⟨rfl, rfl⟩ | ⟨rfl | rfl, rfl⟩ <;> simp <;> decide

theorem escape
    (hescape : scanEscape (behind out ('\\' :: rest)) = .ok (piece, after))
    (hless : after.rest.length ≤ rest.length)
    (hbody : Body true after text last) :
    Body true (behind out ('\\' :: rest)) (piece ++ text) last := by
  refine hbody.step rfl ?_ hless
  rw [quotedPiece_apply, if_neg (by decide), if_neg (by simp),
    if_neg (by decide), if_pos (by decide)]
  exact hescape

end Body

/-- What can follow blanks and line breaks between quotes. -/
def Inked (rest : List Char) : Prop :=
  ∃ c more, rest = c :: more ∧ isQuotedBlank c = false ∧ endsLine c = false

theorem run_blanks (count : Nat)
    (hrest : ∀ c ∈ rest.head?, isQuotedBlank c = false) :
    run isQuotedBlank (behind out (List.replicate count ' ' ++ rest)) =
      .ok (List.replicate count ' ',
        behind (List.replicate count ' ' ++ out) rest) := by
  have hrun : run isQuotedBlank
      (behind out (List.replicate count ' ' ++ rest)) = _ :=
    run_behind (fun c hmem => by rw [List.eq_of_mem_replicate hmem]; rfl)
      (fun c hmem => by rw [List.eq_of_mem_replicate hmem]; decide) hrest
  rw [hrun, List.reverse_replicate]

theorem Inked.not_blank (hrest : Inked rest) :
    ∀ c ∈ rest.head?, isQuotedBlank c = false := by
  obtain ⟨c, more, rfl, hblank, -⟩ := hrest
  rintro _ ⟨⟩
  exact hblank

theorem Inked.not_break (hrest : Inked rest) :
    ∀ c ∈ rest.head?, isBreak c = false := by
  obtain ⟨c, more, rfl, -, hends⟩ := hrest
  rintro _ ⟨⟩
  rw [endsLine, Bool.or_eq_false_iff] at hends
  exact hends.2

/-- Line breaks are read with the indentation behind each of them. -/
theorem scanQuotedBreaks_behind {breaks : List Char}
    (hbreaks : ∀ c ∈ breaks, Style.isBreak c = true) {indent : Nat}
    (hindent : 0 < indent) (hrest : Inked rest) {fuel : Nat}
    (hfuel : breaks.length < fuel) (out : List Char) :
    scanQuotedBreaks fuel
      (behind out (breaks ++ (List.replicate indent ' ' ++ rest))) =
      .ok (breaks.map heardBreak,
        behind (List.replicate indent ' ' ++ (breaks.reverse ++ out))
          rest) := by
  induction breaks generalizing fuel out with
  | nil =>
      obtain ⟨less, rfl⟩ := Nat.exists_eq_succ_of_ne_zero (Nat.ne_of_gt hfuel)
      rw [List.nil_append, scanQuotedBreaks,
        bind_of (atSeparator_behind (unmarked_spaces hindent rest)),
        if_neg (by decide)]
      refine (bind_of (run_blanks indent hrest.not_blank)).trans ?_
      exact (bind_of (lineBreak_none hrest.not_break)).trans rfl
  | cons c more ih =>
      obtain ⟨less, rfl⟩ :=
        Nat.exists_eq_succ_of_ne_zero (Nat.ne_zero_of_lt hfuel)
      have hbreak := hbreaks c List.mem_cons_self
      have hblank : isQuotedBlank c = false := by
        rw [isQuotedBlank, Bool.or_eq_false_iff, beq_eq_false_iff_ne,
          beq_eq_false_iff_ne]
        constructor <;> rintro rfl <;> exact absurd hbreak (by decide)
      rw [List.cons_append, scanQuotedBreaks,
        bind_of (atSeparator_behind (unmarked_break hbreak _)),
        if_neg (by decide)]
      refine (bind_of (run_blanks 0 (by simpa using hblank))).trans ?_
      refine (bind_of (lineBreak_behind hbreak)).trans ?_
      have hless : more.length < less := by simpa using hfuel
      refine (bind_of
        (ih (fun d hd => hbreaks d (List.mem_cons_of_mem c hd)) hless _)).trans
        ?_
      simp
      rfl

theorem quotedPiece_blanks {count : Nat} (hrest : Inked rest) :
    quotedPiece double ' '
      (behind out (' ' :: (List.replicate count ' ' ++ rest))) =
      .ok (List.replicate (count + 1) ' ',
        behind (List.replicate (count + 1) ' ' ++ out) rest) := by
  have hblanks :
      run isQuotedBlank (behind out (List.replicate (count + 1) ' ' ++ rest)) =
        _ :=
    run_blanks (count + 1) hrest.not_blank
  rw [List.replicate_succ, List.cons_append] at *
  rw [quotedPiece_apply, if_neg (by decide), if_neg (by simp), if_neg (by simp),
    if_neg (by decide), if_neg (by decide)]
  refine (bind_of hblanks).trans ?_
  obtain ⟨c, more, rfl, -, hends⟩ := id hrest
  have hend : (c == endMark) = false := by
    rw [endsLine, Bool.or_eq_false_iff] at hends
    exact hends.1
  refine (bind_of (peek_behind 0)).trans ?_
  rw [List.drop_zero, List.headD_cons, hend, if_neg (by decide)]
  exact (bind_of (lineBreak_none hrest.not_break)).trans rfl

namespace Body

theorem blanks {count : Nat} (hcount : 0 < count) (hrest : Inked rest)
    (hbody : Body double (behind (List.replicate count ' ' ++ out) rest)
      text last) :
    Body double (behind out (List.replicate count ' ' ++ rest))
      (List.replicate count ' ' ++ text) last := by
  obtain ⟨less, rfl⟩ :=
    Nat.exists_eq_succ_of_ne_zero (Nat.pos_iff_ne_zero.mp hcount)
  exact Body.step (by simp) (quotedPiece_blanks hrest) (by simp) hbody

theorem blank (hrest : ∃ count more, rest = List.replicate count ' ' ++ more ∧
    Inked more)
    (hbody : Body double (behind (' ' :: out) rest) text last) :
    Body double (behind out (' ' :: rest)) ([' '] ++ text) last := by
  obtain ⟨_ | count, more, rfl, hmore⟩ := hrest
  · exact Body.blanks Nat.one_pos hmore hbody
  · rintro (_ | fuel) hfuel
    · omega
    · have hpiece (count : Nat) (out : List Char) :
          quotedPiece double ' '
            (behind out (' ' :: (List.replicate count ' ' ++ more))) =
            .ok (List.replicate (count + 1) ' ',
              behind (List.replicate (count + 1) ' ' ++ out) more) :=
        quotedPiece_blanks hmore
      have hlater := hbody (fuel + 1) (by simp at hfuel ⊢; omega)
      have hgoes (piece : List Char) :
          ((' ' == '\'' && !double && piece.isEmpty) ||
            (' ' == '"' && double)) = false := by simp
      rw [List.replicate_succ, List.cons_append,
        scanQuotedBody_piece fuel (hgoes _) (hpiece count (' ' :: out))]
        at hlater
      rw [scanQuotedBody_piece fuel (hgoes _) (hpiece (count + 1) out)]
      have hout : List.replicate (count + 1) ' ' ++ ' ' :: out =
          List.replicate (count + 2) ' ' ++ out := by
        rw [List.append_cons, ← List.replicate_succ']
      rw [hout] at hlater
      cases hfound : scanQuotedBody double fuel
          (behind (List.replicate (count + 2) ' ' ++ out) more) with
      | error trouble =>
          rw [hfound] at hlater
          cases hlater
      | ok found =>
          rw [hfound] at hlater
          cases hlater
          rfl

theorem breaks {c : Char} {more : List Char} (hbreak : Style.isBreak c = true)
    (hbreaks : ∀ d ∈ more, Style.isBreak d = true) {indent : Nat}
    (hindent : 0 < indent) (hrest : Inked rest)
    (hbody : Body double
      (behind (List.replicate indent ' ' ++ ((c :: more).reverse ++ out)) rest)
        text last) :
    Body double (behind out (c :: more ++ (List.replicate indent ' ' ++ rest)))
      (fold (heardBreak c) (more.map heardBreak) ++ text) last := by
  have hnot (mark : Char) (hmark : Style.isBreak mark = false) :
      (c == mark) = false := by
    rw [beq_eq_false_iff_ne]
    rintro rfl
    rw [hbreak] at hmark
    cases hmark
  have hplain : isQuotedPlain c = false := by
    simp [isQuotedPlain, endsLine, isBreak_of_style hbreak]
  rw [List.cons_append]
  refine Body.step ?_ ?_ (by simp; omega) hbody
  · simp [hnot '\'' (by decide), hnot '"' (by decide)]
  · rw [quotedPiece_apply, if_neg (by simp [hplain]),
      if_neg (by simp [hnot '\'' (by decide)]),
      if_neg
        (by
          simp [hnot '\'' (by decide), hnot '"' (by decide),
            hnot '\\' (by decide)]), if_neg (by simp [hnot '\\' (by decide)]),
      if_neg (by simp [hnot '\'' (by decide), hnot '"' (by decide)])]
    have hblank : isQuotedBlank c = false := by
      simp [isQuotedBlank, hnot ' ' (by decide), hnot '\t' (by decide)]
    refine (bind_of (run_blanks 0 (by simpa using hblank))).trans ?_
    refine (bind_of (peek_behind 0)).trans ?_
    rw [List.drop_zero, List.headD_cons, hnot endMark (by decide),
      if_neg (by decide)]
    refine (bind_of (lineBreak_behind hbreak)).trans ?_
    refine (bind_of (remaining_apply _)).trans ?_
    refine (bind_of (scanQuotedBreaks_behind hbreaks hindent hrest ?_ _)).trans
      ?_
    · simp
      omega
    · simp
      rfl

theorem scanQuoted {quote : Char} (hquote : Tame quote) {chunk : List Char}
    (hbody : Body double (behind (quote :: out) (chunk ++ quote :: rest)) text
      (behind (chunk.reverse ++ quote :: out) (quote :: rest))) :
    scanQuoted double (behind out (quote :: chunk ++ [quote] ++ rest)) =
      .ok (String.ofList text,
        behind ((quote :: chunk ++ [quote]).reverse ++ out) rest) := by
  rw [Yaml.scanQuoted, List.append_assoc, List.cons_append,
    List.singleton_append, bind_of (skip_one hquote),
    bind_of (remaining_apply _), bind_of (hbody _ (Nat.lt_add_one _)),
    bind_of (skip_one hquote)]
  simp
  rfl

end Body

end Fragments.Yaml
