import Fragments.Proofs.Yaml.QuotedText

namespace Fragments.Yaml

open Cursor Scan

/-- What a run between single quotes is read as. -/
def heardRun : List Char → List Char
  | [] => []
  | c :: more =>
      if c.toNat = 0x85 then if more.isEmpty then [' '] else more.map heardBreak
      else (c :: more).map heardBreak

/-- What a text between single quotes is read as. -/
def heardSingle (chars : List Char) : List Char := (runs chars).flatMap heardRun

theorem heardBreak_of_not_break {c : Char} (hbreak : Style.isBreak c = false) :
    heardBreak c = c := by
  refine if_neg fun hnext => ?_
  simp [Style.isBreak, hnext] at hbreak

theorem heardRun_of_not_break {run : List Char}
    (hrun : ∀ c ∈ run, Style.isBreak c = false) :
    heardRun run = run := by
  cases run with
  | nil => rfl
  | cons c more =>
      have hnext : c.toNat ≠ 0x85 := by
        intro hnext
        have hbreak := hrun c List.mem_cons_self
        simp [Style.isBreak, hnext] at hbreak
      rw [heardRun, if_neg hnext]
      exact (List.map_congr_left fun d hd =>
        heardBreak_of_not_break (hrun d hd)).trans
        (List.map_id _)

def writtenBreaks (run : List Char) : List Char :=
  if run.head? == some '\n' then '\n' :: run else run

theorem writtenBreaks_cons {run : List Char} (hnonempty : run ≠ [])
    (hbreaks : ∀ c ∈ run, Style.isBreak c = true) :
    ∃ c more, writtenBreaks run = c :: more ∧
      (∀ d ∈ c :: more, Style.isBreak d = true) ∧ fold (heardBreak c)
      (more.map heardBreak) = heardRun run := by
  obtain ⟨c, more, rfl⟩ := List.exists_cons_of_ne_nil hnonempty
  by_cases hfeed : c = '\n'
  · subst hfeed
    refine ⟨'\n', '\n' :: more, rfl, ?_, rfl⟩
    simpa using hbreaks
  · refine ⟨c, more, if_neg (by simpa using hfeed), hbreaks, ?_⟩
    by_cases hnext : c.toNat = 0x85
    · have hheard : heardBreak c = '\n' := if_pos hnext
      rw [heardRun, if_pos hnext, hheard, fold]
      cases more <;> rfl
    · have hheard : heardBreak c = c := if_neg hnext
      rw [heardRun, if_neg hnext, List.map_cons, hheard, fold,
        if_pos (by simpa using hfeed)]
      rfl

namespace Pen

theorem foldl_newline {breaks : List Char}
    (hbreaks : ∀ c ∈ breaks, isBreak c = true) (out : List Char) :
    breaks.foldl (fun pen c => pen.newline c) (behind out true true) =
      behind (breaks.reverse ++ out) true true := by
  induction breaks generalizing out with
  | nil => rfl
  | cons c more ih =>
      rw [List.foldl_cons, newline_behind (hbreaks c List.mem_cons_self),
        ih (fun d hd => hbreaks d (List.mem_cons_of_mem c hd))]
      simp

end Pen

theorem writeBreaks_behind {run : List Char} (hnonempty : run ≠ [])
    (hbreaks : ∀ c ∈ run, Style.isBreak c = true) {indent : Nat}
    (hindent : 0 < indent) (out : List Char) (spaced fresh : Bool) :
    writeBreaks indent run (.behind out spaced fresh) =
      .behind (List.replicate indent ' ' ++
        ((writtenBreaks run).reverse ++ out)) true true := by
  have hbreaks : ∀ c ∈ run, isBreak c = true := fun c hc =>
    isBreak_of_style (hbreaks c hc)
  obtain ⟨c, more, rfl⟩ := List.exists_cons_of_ne_nil hnonempty
  have hall : (c :: more).foldl (fun pen c => pen.newline c)
      (if (c :: more).head? == some '\n' then
        (Pen.behind out spaced fresh).newline '\n'
          else .behind out spaced fresh) =
        .behind ((writtenBreaks (c :: more)).reverse ++ out) true true := by
    unfold writtenBreaks
    split
    · rw [Pen.newline_behind rfl, Pen.foldl_newline hbreaks]
      simp
    · rw [List.foldl_cons, Pen.newline_behind (hbreaks c List.mem_cons_self),
        Pen.foldl_newline fun d hd => hbreaks d (List.mem_cons_of_mem c hd)]
      simp
  have hcolumn : columnOf ((writtenBreaks (c :: more)).reverse ++ out) = 0 := by
    have hlast : (writtenBreaks (c :: more)).getLast? =
        (c :: more).getLast? := by
      unfold writtenBreaks
      split <;> rfl
    obtain ⟨last, hlast'⟩ : ∃ last, (c :: more).getLast? = some last :=
      ⟨_, List.getLast?_eq_some_getLast (List.cons_ne_nil c more)⟩
    obtain ⟨others, hothers⟩ :=
      List.getLast?_eq_some_iff.mp (hlast.trans hlast')
    rw [hothers, List.reverse_append]
    exact columnOf_cons_of_break (hbreaks last (List.mem_of_getLast? hlast')) _
  rw [writeBreaks, hall, Pen.indentTo_fresh (by omega), hcolumn, Nat.sub_zero]

theorem hasNeighbours_append {p : Char → Char → Bool} {before after : List Char}
    (hnone : Style.hasNeighbours p (before ++ after) = false) :
    Style.hasNeighbours p after = false ∧
      ∀ a ∈ before.getLast?, ∀ b ∈ after.head?, p a b = false := by
  induction before with
  | nil => exact ⟨hnone, by simp⟩
  | cons a more ih =>
      cases more with
      | nil =>
          cases after with
          | nil => simp [Style.hasNeighbours]
          | cons b others =>
              simp only [List.singleton_append, Style.hasNeighbours,
                Bool.or_eq_false_iff] at hnone
              exact ⟨hnone.2, by simpa using hnone.1⟩
      | cons d others =>
          simp only [List.cons_append, Style.hasNeighbours,
            Bool.or_eq_false_iff] at hnone
          simpa using ih hnone.2

theorem unblank_of_word {c : Char} (hplain : Style.isSpecial c = false)
    (hword : runKind c = .word) :
    (c == '\t') = false ∧ (c == ' ') = false ∧ endsLine c = false := by
  obtain ⟨hblank, hbreak⟩ := runKind_eq_word_iff.mp hword
  have hends := Style.endsToken_eq hplain hbreak
  rwa [beq_eq_false_iff_ne.mpr hblank, endsToken, endsWord,
    Bool.or_eq_false_iff, Bool.or_eq_false_iff] at hends

theorem isQuotedPlain_of_word {c : Char} (hplain : Style.isSpecial c = false)
    (hword : runKind c = .word) (hquote : c ≠ '\'')
    (hother : c ≠ '"' ∧ c ≠ '\\') :
    isQuotedPlain c = true := by
  have hends := unblank_of_word hplain hword
  simp [isQuotedPlain, hquote, hother, hends]

theorem inked_of_word {c : Char} (hplain : Style.isSpecial c = false)
    (hword : runKind c = .word) (rest : List Char) : Inked (c :: rest) := by
  have hends := unblank_of_word hplain hword
  exact ⟨c, rest, rfl, by simp [isQuotedBlank, hends], hends.2.2⟩

theorem Body.word {word out rest text : List Char} {last : Cursor}
    (hplain : ∀ c ∈ word, Style.isSpecial c = false)
    (hword : ∀ c ∈ word, runKind c = .word)
    (hbody : Body false (behind ((doubleQuotes word).reverse ++ out) rest)
      text last) :
    Body false (behind out (doubleQuotes word ++ rest))
    (word ++ text) last := by
  induction word generalizing out with
  | nil => exact hbody
  | cons c more ih =>
      have hmore {out : List Char}
          (hlater : Body false
            (behind ((doubleQuotes more).reverse ++ out) rest) text last) :
          Body false (behind out (doubleQuotes more ++ rest))
            (more ++ text) last :=
        ih (fun d hd => hplain d (List.mem_cons_of_mem c hd))
          (fun d hd => hword d (List.mem_cons_of_mem c hd)) hlater
      have hc := hplain c List.mem_cons_self
      by_cases hquote : c = '\''
      · subst hquote
        exact Body.doubled (hmore (by simpa [doubleQuotes] using hbody))
      · have hwritten : doubleQuotes (c :: more) = c :: doubleQuotes more := by
          simp [doubleQuotes, hquote]
        rw [hwritten] at hbody ⊢
        have hlater : Body false (behind (c :: out) (doubleQuotes more ++ rest))
            (more ++ text) last :=
          hmore (by simpa using hbody)
        by_cases hother : c = '"' ∨ c = '\\'
        · exact Body.other (.inr ⟨hother, rfl⟩) hlater
        · rw [not_or] at hother
          exact Body.plain
            (isQuotedPlain_of_word hc (hword c List.mem_cons_self) hquote
              hother) (Style.tame_of_isSpecial hc) hlater

/-- The pen behind a run between single quotes; `inside` says that neither the
first nor the last run is written. -/
def writeSingleRun (fold : Bool) (indent : Nat) (inside : Bool) (pen : Pen)
    (run : List Char) :
    Pen :=
  if (run.head?.map Style.isBreak).getD false then writeBreaks indent run pen
  else if inside && mayBreak fold run pen then pen.indentTo indent
  else pen.write (doubleQuotes run)

theorem writeSingleRuns_cons (fold : Bool) (indent : Nat) (first : Bool)
    (pen : Pen) (run : List Char) (rest : List (List Char)) :
    writeSingleRuns fold indent first pen (run :: rest) =
      writeSingleRuns fold indent false
        (writeSingleRun fold indent (!first && !rest.isEmpty) pen run) rest :=
  rfl

theorem doubleQuotes_of_not_quote {run : List Char}
    (hrun : ∀ c ∈ run, c ≠ '\'') :
    doubleQuotes run = run := by
  induction run with
  | nil => rfl
  | cons c more ih =>
      have hmore := ih fun d hd => hrun d (List.mem_cons_of_mem c hd)
      unfold doubleQuotes at hmore ⊢
      rw [List.flatMap_cons, hmore,
        if_neg (by simpa using hrun c List.mem_cons_self)]
      rfl

/-- Behind a run, a line of its own has been indented. -/
def Placed (indent : Nat) (kind : RunKind) (fresh : Bool)
    (out : List Char) : Prop :=
  fresh = true → indent ≤ columnOf out ∧ (kind = .word → indent < columnOf out)

/-- How a run is written and read back between single quotes. -/
structure WrittenRun (indent : Nat) (kind : RunKind) (run out piece : List Char)
    (fresh : Bool) :
    Prop where
  placed : Placed indent kind fresh (piece.reverse ++ out)
  inked : kind = .word → ∀ rest, Inked (piece ++ rest)
  reads : ∀ {rest text : List Char} {last : Cursor},
    (kind = .word ∨ Inked rest) →
    Body false (behind (piece.reverse ++ out) rest) text last →
      Body false (behind out (piece ++ rest)) (heardRun run ++ text) last

variable {indent : Nat} {run out : List Char} {spaced fresh : Bool}

theorem writeSingleRun_word (fold inside : Bool) (hnonempty : run ≠ [])
    (hplain : ∀ c ∈ run, Style.isSpecial c = false)
    (hword : ∀ c ∈ run, runKind c = .word)
    (hplaced : fresh = true → indent ≤ columnOf out) :
    ∃ piece, writeSingleRun fold indent inside (.behind out spaced fresh) run =
        .behind (piece.reverse ++ out) spaced fresh ∧
      WrittenRun indent .word run out piece fresh := by
  have hbreak : ∀ c ∈ run, Style.isBreak c = false := fun c hc =>
    (runKind_eq_word_iff.mp (hword c hc)).2
  have hmem : ∀ c ∈ doubleQuotes run, c ∈ run := by
    intro c hc
    obtain ⟨d, hd, hc⟩ := List.mem_flatMap.mp hc
    split at hc <;> simp_all
  have hbreaks : ∀ c ∈ doubleQuotes run, isBreak c = false := fun c hc =>
    (isBreak_eq (Style.tame_of_isSpecial (hplain c (hmem c hc)))).trans
      (hbreak c (hmem c hc))
  obtain ⟨first, others, hwritten⟩ :
      ∃ first others, doubleQuotes run = first :: others := by
    obtain ⟨first, more, rfl⟩ := List.exists_cons_of_ne_nil hnonempty
    by_cases hquote : first = '\'' <;> simp [doubleQuotes, hquote]
  refine ⟨doubleQuotes run, ?_, fun hfresh => ?_, fun _ rest =>
    ?_, fun {rest text last} _ hbody => ?_⟩
  · have hlead : (run.head?.map Style.isBreak).getD false = false := by
      obtain ⟨first, more, rfl⟩ := List.exists_cons_of_ne_nil hnonempty
      exact hbreak first List.mem_cons_self
    rw [writeSingleRun, hlead, if_neg (by decide), mayBreak_word hword,
      Bool.and_false, if_neg (by decide), Pen.write_behind hbreaks]
  · have hpositive : 0 < (doubleQuotes run).length := by simp [hwritten]
    have hindent := hplaced hfresh
    rw [columnOf_append fun c hc => hbreaks c (List.mem_reverse.mp hc),
      List.length_reverse]
    exact ⟨by omega, fun _ => by omega⟩
  · rw [hwritten]
    have hfirst := hmem first (by simp [hwritten])
    exact inked_of_word (hplain first hfirst) (hword first hfirst) _
  · rw [heardRun_of_not_break hbreak]
    exact Body.word hplain hword hbody

theorem writeSingleRun_breaks (fold inside : Bool) (hindent : 0 < indent)
    (hnonempty : run ≠ []) (hbreaks : ∀ c ∈ run, Style.isBreak c = true) :
    ∃ piece, writeSingleRun fold indent inside (.behind out spaced fresh) run =
        .behind (piece.reverse ++ out) true true ∧
      WrittenRun indent .lineBreak run out piece true := by
  have hlead : (run.head?.map Style.isBreak).getD false = true := by
    obtain ⟨first, more, rfl⟩ := List.exists_cons_of_ne_nil hnonempty
    exact hbreaks first List.mem_cons_self
  have hout : List.replicate indent ' ' ++
      ((writtenBreaks run).reverse ++ out) =
      (writtenBreaks run ++ List.replicate indent ' ').reverse ++ out := by
    simp
  obtain ⟨c, more, hwritten, hall, hheard⟩ :=
    writtenBreaks_cons hnonempty hbreaks
  refine ⟨writtenBreaks run ++ List.replicate indent ' ', ?_, fun _ =>
    ⟨?_, nofun⟩, nofun, fun {rest text last} hrest hbody => ?_⟩
  · rw [writeSingleRun, hlead, if_pos rfl,
      writeBreaks_behind hnonempty hbreaks hindent, hout]
  · rw [← hout, columnOf_spaces]
    omega
  · rw [List.append_assoc, hwritten, ← hheard]
    rw [← hout, hwritten] at hbody
    exact Body.breaks (hall c List.mem_cons_self)
      (fun d hd => hall d (List.mem_cons_of_mem c hd)) hindent
        (hrest.resolve_left nofun) hbody

theorem writeSingleRun_blanks (fold inside : Bool) (hindent : 0 < indent)
    (hnonempty : run ≠ []) (hblank : ∀ c ∈ run, c = ' ')
    (hplaced : fresh = true → indent < columnOf out) :
    ∃ piece spaced' fresh', writeSingleRun fold indent inside
      (.behind out spaced fresh) run =
        .behind (piece.reverse ++ out) spaced' fresh' ∧
      WrittenRun indent .blank run out piece fresh' := by
  obtain ⟨count, rfl⟩ : ∃ count, run = List.replicate count ' ' :=
    ⟨_, List.eq_replicate_of_mem hblank⟩
  have hcount : 0 < count := by simpa [Nat.pos_iff_ne_zero] using hnonempty
  have hheard : heardRun (List.replicate count ' ') =
      List.replicate count ' ' :=
    heardRun_of_not_break fun c hc => by rw [hblank c hc]; rfl
  have hlead : ((List.replicate count ' ').head?.map Style.isBreak).getD false =
      false := by
    rw [List.head?_replicate, if_neg (by omega)]
    rfl
  rw [writeSingleRun, hlead, if_neg (by decide)]
  split
  · next hbreak =>
      obtain rfl : count = 1 := by
        simp only [mayBreak, Bool.and_eq_true, beq_iff_eq] at hbreak
        simpa using congrArg List.length hbreak.2.1.2
      have hline : ('\n' :: List.replicate indent ' ').reverse ++ out =
          Pen.line indent out := by
        simp [Pen.line]
      refine ⟨'\n' :: List.replicate indent ' ', true, true, ?_, fun _ =>
        ⟨?_, by simp⟩, by simp, fun {rest text last} hrest hbody => ?_⟩
      · rw [hline, Pen.indentTo_behind hplaced]
      · rw [hline, Pen.columnOf_line]
      · rw [hheard]
        have hbody : Body false
            (behind (List.replicate indent ' ' ++ (['\n'].reverse ++ out)) rest)
              text last := by simpa using hbody
        exact Body.breaks rfl (by simp) hindent
          (hrest.resolve_left (by simp)) hbody
  · have hquotes : doubleQuotes (List.replicate count ' ') =
        List.replicate count ' ' :=
      doubleQuotes_of_not_quote fun c hc => by rw [hblank c hc]; decide
    refine ⟨List.replicate count ' ', spaced, fresh, ?_, fun hfresh =>
      ⟨?_, by simp⟩, by simp, fun {rest text last} hrest hbody => ?_⟩
    · rw [hquotes, Pen.write_spaces, List.reverse_replicate]
    · have hindent := hplaced hfresh
      rw [List.reverse_replicate, columnOf_spaces]
      omega
    · rw [hheard]
      exact Body.blanks hcount (hrest.resolve_left (by simp))
        (by simpa using hbody)

/-- Any run, given where the pen is. -/
theorem writeSingleRun_written (fold inside : Bool) (hindent : 0 < indent)
    {kind : RunKind} (hnonempty : run ≠ [])
    (hplain : ∀ c ∈ run, Style.isSpecial c = false)
    (hkind : ∀ c ∈ run, runKind c = kind)
    (hplaced : fresh = true → indent ≤ columnOf out ∧
      (kind = .blank → indent < columnOf out)) :
    ∃ piece spaced' fresh', writeSingleRun fold indent inside
      (.behind out spaced fresh) run =
        .behind (piece.reverse ++ out) spaced' fresh' ∧
      WrittenRun indent kind run out piece fresh' := by
  cases kind with
  | word =>
      obtain ⟨piece, hwritten, hread⟩ :=
        writeSingleRun_word fold inside hnonempty hplain hkind fun hfresh =>
          (hplaced hfresh).1
      exact ⟨piece, _, _, hwritten, hread⟩
  | lineBreak =>
      obtain ⟨piece, hwritten, hread⟩ :=
        writeSingleRun_breaks fold inside hindent hnonempty fun c hc =>
          runKind_eq_lineBreak_iff.mp (hkind c hc)
      exact ⟨piece, _, _, hwritten, hread⟩
  | blank =>
      exact writeSingleRun_blanks fold inside hindent hnonempty
        (fun c hc => runKind_eq_blank_iff.mp (hkind c hc)) fun hfresh =>
          (hplaced hfresh).2 rfl

theorem word_of_hasBreakBlank {kind : RunKind} {tail : List (List Char)}
    (hnonempty : run ≠ []) (hkind : ∀ c ∈ run, runKind c = kind)
    (hother : kind ≠ .word) (hturns : Alternates (some kind) tail)
    (hnone : Style.hasBreakBlank (run :: tail).flatten = false) :
    ∀ c ∈ tail.flatten.head?, runKind c = .word := by
  intro c hc
  have hnext := (hasNeighbours_append hnone).2 _
    (List.getLast?_eq_some_getLast hnonempty) c hc
  have hlast := hkind _ (List.getLast_mem hnonempty)
  have hturn : kind ≠ runKind c := by
    cases hturns with
    | nil => cases hc
    | @cons _ next first _ hturn hnonempty hnext _ =>
        rw [List.flatten_cons, List.head?_append_of_ne_nil _ hnonempty] at hc
        rw [hnext c (List.mem_of_head? hc)]
        exact fun heq => hturn (congrArg some heq)
  rw [Bool.or_eq_false_iff] at hnext
  cases hkind' : runKind c with
  | word => rfl
  | blank =>
      obtain rfl := runKind_eq_blank_iff.mp hkind'
      cases kind with
      | word => exact absurd rfl hother
      | blank => exact absurd hkind'.symm hturn
      | lineBreak => simp [runKind_eq_lineBreak_iff.mp hlast] at hnext
  | lineBreak =>
      cases kind with
      | word => exact absurd rfl hother
      | lineBreak => exact absurd hkind'.symm hturn
      | blank =>
          simp [runKind_eq_blank_iff.mp hlast,
            runKind_eq_lineBreak_iff.mp hkind'] at hnext

theorem writeSingleRuns_written (fold : Bool) (hindent : 0 < indent) :
    ∀ (all : List (List Char)) {before : Option RunKind} (out : List Char)
      (spaced fresh first : Bool), Alternates before all →
      (∀ c ∈ all.flatten, Style.isSpecial c = false) →
      Style.hasBreakBlank all.flatten = false →
      (before = some .blank ∨ before = some .lineBreak →
        ∀ c ∈ all.flatten.head?, runKind c = .word) →
      (fresh = true → ∃ kind, before = some kind ∧
        Placed indent kind fresh out) →
      ∃ chunk spaced' fresh', writeSingleRuns fold indent first
        (.behind out spaced fresh) all =
          .behind (chunk.reverse ++ out) spaced' fresh' ∧
        ((∀ c ∈ all.flatten.head?, runKind c = .word) →
          ∀ rest, Inked rest → Inked (chunk ++ rest)) ∧
        ∀ {rest text : List Char} {last : Cursor}, Inked rest →
          Body false (behind (chunk.reverse ++ out) rest) text last →
            Body false (behind out (chunk ++ rest))
            (all.flatMap heardRun ++ text) last
  | [], _, out, spaced, fresh, _, _, _, _, _, _ =>
      ⟨[], spaced, fresh, rfl, fun _ _ hrest => hrest, fun _ hbody => hbody⟩
  | run :: tail, before, out, spaced, fresh, first, hturns, hplain, hnone,
      hnext, hplaced => by
        cases hturns with
        | @cons _ kind _ _ hturn hnonempty hkind hrest =>
            have hhead : ∀ c ∈ run.head?, c ∈ (run :: tail).flatten.head? := by
              rintro c hc
              rwa [List.flatten_cons, List.head?_append_of_ne_nil _ hnonempty]
            obtain ⟨c, hc⟩ : ∃ c, c ∈ run.head? :=
              ⟨_, List.head?_eq_some_head hnonempty⟩
            have hplaced : fresh = true →
                indent ≤ columnOf out ∧
                  (kind = .blank → indent < columnOf out) := by
              intro hfresh
              obtain ⟨earlier, rfl, hearlier⟩ := hplaced hfresh
              refine ⟨(hearlier hfresh).1, ?_⟩
              rintro rfl
              refine (hearlier hfresh).2 ?_
              cases earlier with
              | word => rfl
              | blank => exact absurd rfl hturn
              | lineBreak =>
                  have hword := hnext (.inr rfl) c (hhead c hc)
                  rw [hkind c (List.mem_of_head? hc)] at hword
                  cases hword
            obtain ⟨piece, spaced', fresh', hwritten, hrun⟩ :=
              writeSingleRun_written fold (!first && !tail.isEmpty)
                hindent hnonempty
              (fun c hc => hplain c (by simp [hc])) hkind hplaced
            have hlater := fun hother =>
              word_of_hasBreakBlank hnonempty hkind hother hrest hnone
            obtain ⟨chunk, last, later, hchunk, hinked, hreads⟩ :=
              writeSingleRuns_written fold hindent tail (piece.reverse ++ out)
                spaced' fresh' false hrest
              (fun c hc => hplain c
                (by rw [List.flatten_cons]; exact List.mem_append_right _ hc))
              (hasNeighbours_append hnone).1
              (fun hbefore =>
                hlater (by rcases hbefore with ⟨⟨⟩⟩ | ⟨⟨⟩⟩ <;> decide))
              (fun _ => ⟨kind, rfl, hrun.placed⟩)
            refine ⟨piece ++ chunk, last, later, ?_, fun hword rest hrest => ?_,
              fun {rest text last} hrest hbody => ?_⟩
            · rw [writeSingleRuns_cons, hwritten, hchunk]
              simp
            · have hown : kind = .word :=
                (hkind c (List.mem_of_head? hc)).symm.trans
                  (hword c (hhead c hc))
              rw [List.append_assoc]
              exact hrun.inked hown _
            · rw [List.append_assoc, List.flatMap_cons, List.append_assoc]
              refine hrun.reads ?_ (hreads hrest (by simpa using hbody))
              by_cases hown : kind = .word
              · exact .inl hown
              · exact .inr (hinked (hlater hown) rest hrest)

/-- A text between single quotes as it is written, and what it is read as. -/
theorem scanQuoted_single (fold : Bool) (hindent : 0 < indent)
    {chars : List Char} (hsingle : Style.allowsSingle chars = true)
    (out : List Char) (fresh : Bool) :
    ∃ body, writeSingle fold indent chars (.behind out true fresh) =
        .behind (('\'' :: body ++ ['\'']).reverse ++ out) false false ∧
      ∀ {rest : List Char}, (∀ c ∈ rest.head?, c ≠ '\'') →
        scanQuoted false (behind out ('\'' :: body ++ ['\''] ++ rest)) =
          .ok (String.ofList (heardSingle chars),
            behind (('\'' :: body ++ ['\'']).reverse ++ out) rest) := by
  rw [Style.allowsSingle, Bool.and_eq_true, Bool.not_eq_true',
    Bool.not_eq_true', List.any_eq_false] at hsingle
  obtain ⟨hnone, hplain⟩ := hsingle
  have hflatten := flatten_runs chars
  obtain ⟨body, spaced', fresh', hbody, -, hreads⟩ :=
    writeSingleRuns_written fold hindent (runs chars) ('\'' :: out) false false
      true (alternates_runs chars)
    (by simpa [hflatten] using hplain) (by rw [hflatten]; exact hnone)
      (by simp) nofun
  refine ⟨body, ?_, fun {rest} hrest => ?_⟩
  · rw [writeSingle, Pen.mark_behind (by decide), Bool.and_false, Bool.true_or,
      if_pos rfl]
    rw [List.reverse_singleton, List.singleton_append, hbody,
      Pen.mark_behind (by decide)]
    simp
  · have hclose : Inked ('\'' :: rest) := ⟨_, _, rfl, by decide, by decide⟩
    have hread := hreads hclose (Body.close_single hrest)
    rw [List.append_nil] at hread
    exact Body.scanQuoted (by decide) hread

end Fragments.Yaml
