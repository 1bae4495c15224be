import Fragments.Proofs.Yaml.Pens
import Fragments.Proofs.Yaml.Runs
import Fragments.Yaml.ScalarText

namespace Fragments.Yaml

open Cursor Scan

theorem plainLength_append {previous : Char} {word tail rest : List Char}
    (hmarks : Style.hasMark previous (word ++ tail) = false)
    (hword : ∀ c ∈ word, endsToken c = false)
    (htail : Style.wordEnds tail = true) (hrest : plainLength false rest = 0) :
    plainLength false (word ++ rest) = word.length := by
  induction word generalizing previous with
  | nil => exact hrest
  | cons c more ih =>
      simp only [List.cons_append, Style.hasMark, Bool.or_eq_false_iff]
        at hmarks
      obtain ⟨⟨hcolon, -⟩, hmarks⟩ := hmarks
      have hnext : (c == ':' && endsToken ((more ++ rest).headD endMark)) =
          false := by
        rw [Bool.and_eq_false_iff] at hcolon ⊢
        refine hcolon.imp_right fun hends => ?_
        cases more with
        | nil => exact absurd htail (by simpa using hends)
        | cons d others => exact hword d (by simp)
      have hends := hword c List.mem_cons_self
      rw [List.cons_append, plainLength]
      simp only [hends, hnext, Bool.false_and, Bool.or_false,
        Bool.false_eq_true, if_false,
        ih hmarks (fun d hd => hword d (List.mem_cons_of_mem _ hd)),
        List.length_cons]

/-- Characters that can go on after blanks. -/
def Solid (rest : List Char) : Prop :=
  ∀ c ∈ rest.head?, c ≠ ' ' ∧ isBreak c = false

theorem scanPlainBlanks_spaces {out rest : List Char} {count : Nat}
    (hrest : Solid rest) :
    scanPlainBlanks (behind out (List.replicate count ' ' ++ rest)) =
      .ok ((List.replicate count ' ', false),
        behind (List.replicate count ' ' ++ out) rest) := by
  rw [scanPlainBlanks, bind_of (run_spaces count fun c hc => (hrest c hc).1),
    bind_of (lineBreak_none fun c hc => (hrest c hc).2)]
  rfl

theorem scanPlainBlanks_line {out rest : List Char} {count : Nat}
    (hrest : Solid rest)
    (hunmarked : Unmarked (List.replicate count ' ' ++ rest)) :
    scanPlainBlanks (behind out ('\n' :: List.replicate count ' ' ++ rest)) =
      .ok (([' '], true), behind (Pen.line count out) rest) := by
  have hrun : run (· == ' ')
      (behind out ('\n' :: List.replicate count ' ' ++ rest)) =
      .ok ([], behind out ('\n' :: List.replicate count ' ' ++ rest)) := rfl
  have hbreaks (fuel : Nat) : scanPlainBreaks (fuel + 1)
      (behind ('\n' :: out) (List.replicate count ' ' ++ rest)) =
        .ok (some [], behind (Pen.line count out) rest) := by
    rw [scanPlainBreaks, bind_of (atSeparator_behind hunmarked),
      if_neg Bool.false_ne_true]
    rw [bind_of (skipSpaces_behind count fun c hc => (hrest c hc).1),
      bind_of (lineBreak_none fun c hc => (hrest c hc).2)]
    rfl
  rw [scanPlainBlanks, bind_of hrun, List.cons_append,
    bind_of (lineBreak_behind rfl)]
  dsimp only
  rw [bind_of (remaining_apply _), bind_of (hbreaks _)]
  rfl

theorem scanPlainFrom_word {least : Int} {fuel : Nat}
    {blanks word rest spaces out : List Char} {broken after : Bool}
    {last : Cursor} (hnonempty : word ≠ []) (hhash : word.head? ≠ some '#')
    (htame : ∀ c ∈ word, Tame c)
    (hlength : plainLength false (word ++ rest) = word.length)
    (hblanks : scanPlainBlanks (behind (word.reverse ++ out) rest) =
      .ok ((spaces, after), last)) :
    scanPlainFrom false least (fuel + 1) blanks broken
      (behind out (word ++ rest)) =
      if spaces.isEmpty || last.peek 0 == '#' ||
      (last.column : Int) < least then
        .ok ((blanks ++ word, after), last)
      else
        (scanPlainFrom false least fuel spaces after last).map fun found =>
          ((blanks ++ word ++ found.1.1, found.1.2), found.2) := by
  obtain ⟨first, more, rfl⟩ := List.exists_cons_of_ne_nil hnonempty
  have hfirst : (first == '#') = false := by simpa using hhash
  have hgoes : ¬(((first :: more ++ rest).drop 0).headD endMark == '#' ||
      plainLength false (first :: more ++ rest) == 0) = true := by
    rw [hlength]
    simpa using hfirst
  have htake : (first :: more ++ rest).take (first :: more).length =
      first :: more :=
    List.take_left
  rw [scanPlainFrom, bind_of (get_apply _), bind_of (peek_behind 0)]
  rw [if_neg (by simpa only [behind_rest] using hgoes), bind_of (get_apply _)]
  simp only [behind_rest, hlength, htake]
  rw [bind_of (skip_behind htame), bind_of hblanks]
  dsimp only
  rw [bind_of (peek_apply 0 last), bind_of (column_apply last), Bool.not_false,
    Bool.true_and]
  split
  · rfl
  · show (scanPlainFrom false least fuel spaces after last >>= _) = _
    cases scanPlainFrom false least fuel spaces after last <;> rfl

theorem scanPlainFrom_gap {least : Int} {fuel : Nat}
    {blanks word gap rest spaces out : List Char} {broken after : Bool}
    (hnonempty : word ≠ []) (hhash : word.head? ≠ some '#')
    (htame : ∀ c ∈ word, Tame c)
    (hlength : plainLength false (word ++ (gap ++ rest)) = word.length)
    (hblanks : scanPlainBlanks (behind (word.reverse ++ out) (gap ++ rest)) =
      .ok ((spaces, after), behind (gap.reverse ++ (word.reverse ++ out)) rest))
    (hspaces : spaces ≠ []) (hrest : rest.head? ≠ some '#')
    (hcolumn : least ≤ columnOf (gap.reverse ++ (word.reverse ++ out))) :
    scanPlainFrom false least (fuel + 1) blanks broken
      (behind out (word ++ (gap ++ rest))) =
      (scanPlainFrom false least fuel spaces after
        (behind (gap.reverse ++ (word.reverse ++ out)) rest)).map fun found =>
          ((blanks ++ word ++ found.1.1, found.1.2), found.2) := by
  have hpeek : (behind (gap.reverse ++ (word.reverse ++ out)) rest).peek
      0 ≠ '#' := by
    rw [Cursor.peek_behind, List.drop_zero]
    cases rest with
    | nil => decide
    | cons c more => exact fun heq => hrest (congrArg some heq)
  rw [scanPlainFrom_word hnonempty hhash htame hlength hblanks, if_neg]
  rw [Bool.or_eq_true, Bool.or_eq_true, not_or, not_or, decide_eq_true_eq,
    Int.not_lt, beq_iff_eq]
  exact ⟨⟨by simpa using hspaces, hpeek⟩, hcolumn⟩

/-- The reader stops behind a plain scalar, with what it has passed over. -/
structure EndsPlain (least : Int) (out rest : List Char) (broken : Bool)
    (last : Cursor) : Prop where
  word : plainLength false rest = 0
  blanks : ∃ spaces, scanPlainBlanks (.behind out rest) = .ok
    ((spaces, broken), last) ∧
    (spaces.isEmpty || last.peek 0 == '#' || (last.column : Int) < least) = true

/-- The text of a plain scalar from a word on: visible, on one line, without
marks. -/
structure PlainFrom (previous : Char) (chars : List Char) : Prop where
  visible : ∀ c ∈ chars, Style.isSpecial c = false ∧ Style.isBreak c = false
  unmarked : Style.hasMark previous chars = false
  hash : chars.head? ≠ some '#'
  last : ∀ c ∈ chars.getLast?, c ≠ ' '

theorem hasMark_append {previous : Char} {chars rest : List Char}
    (hmarks : Style.hasMark previous (chars ++ rest) = false) :
    Style.hasMark (chars.getLast?.getD previous) rest = false := by
  induction chars generalizing previous with
  | nil => exact hmarks
  | cons c more ih =>
      simp only [List.cons_append, Style.hasMark, Bool.or_eq_false_iff]
        at hmarks
      have hrest := ih hmarks.2
      cases more with
      | nil => exact hrest
      | cons d others =>
          rw [List.getLast?_cons_cons,
            List.getLast?_eq_some_getLast (List.cons_ne_nil d others)] at *
          exact hrest

theorem PlainFrom.drop {previous : Char} {word blanks rest : List Char}
    (hplain : PlainFrom previous (word ++ (blanks ++ rest)))
    (hblanks : ∀ c ∈ blanks, c = ' ') (hnonempty : blanks ≠ []) :
    PlainFrom ' ' rest := by
  have hlast : (word ++ blanks).getLast? = some ' ' := by
    rw [List.getLast?_append, List.getLast?_eq_some_getLast hnonempty,
      hblanks _ (List.getLast_mem hnonempty)]
    rfl
  have hmarks : Style.hasMark ' ' rest = false := by
    have happend :
        Style.hasMark ((word ++ blanks).getLast?.getD previous) rest = false :=
      hasMark_append (by simpa using hplain.unmarked)
    rwa [hlast] at happend
  refine ⟨fun c hc => hplain.visible c (by simp [hc]), hmarks, ?_,
    fun c hc => ?_⟩
  · cases rest with
    | nil => simp
    | cons c more =>
        rintro ⟨⟩
        simp [Style.hasMark, endsToken, endsWord] at hmarks
  · refine hplain.last c ?_
    rw [← List.append_assoc, List.getLast?_append, hc]
    rfl

theorem PlainFrom.word {previous : Char} {word rest : List Char}
    (hplain : PlainFrom previous (word ++ rest))
    (hword : ∀ c ∈ word, runKind c = .word) :
    ∀ c ∈ word, Tame c ∧ isBreak c = false ∧ endsToken c = false := by
  intro c hc
  obtain ⟨hvisible, hbreak⟩ := hplain.visible c (List.mem_append_left _ hc)
  have htame := Style.tame_of_isSpecial hvisible
  refine ⟨htame, (isBreak_eq htame).trans hbreak, ?_⟩
  rw [Style.endsToken_eq hvisible hbreak, beq_eq_false_iff_ne]
  exact (runKind_eq_word_iff.mp (hword c hc)).1

theorem PlainFrom.starts {previous : Char} {word rest : List Char}
    (hplain : PlainFrom previous (word ++ rest))
    (hword : ∀ c ∈ word, runKind c = .word) (hnonempty : word ≠ [])
    (tail : List Char) :
    Solid (word ++ tail) ∧ (word ++ tail).head? ≠ some '#' := by
  have hhash := hplain.hash
  rw [List.head?_append_of_ne_nil _ hnonempty] at hhash
  rw [Solid, List.head?_append_of_ne_nil _ hnonempty]
  refine ⟨fun c hc => ?_, hhash⟩
  have hmem := List.mem_of_head? hc
  exact ⟨(runKind_eq_word_iff.mp (hword c hmem)).1,
    (hplain.word hword c hmem).2.1⟩

theorem writePlainRuns_word (fold : Bool) (indent : Nat) {word out : List Char}
    (hword : ∀ c ∈ word, runKind c = .word)
    (hline : ∀ c ∈ word, isBreak c = false) (tail : List (List Char)) :
    writePlainRuns fold indent (.behind out false false) (word :: tail) =
      writePlainRuns fold indent
        (.behind (word.reverse ++ out) false false) tail := by
  rw [writePlainRuns, mayBreak_word hword, if_neg (by decide),
    Pen.write_behind hline]

theorem kinds_of_plain {previous : Char} {word spaces : List Char}
    {more : List (List Char)} {before : Option RunKind}
    (hturns : Alternates before (word :: spaces :: more))
    (hword : ∀ c ∈ word, runKind c = .word)
    (hplain : PlainFrom previous (word :: spaces :: more).flatten) :
    spaces ≠ [] ∧ (∀ c ∈ spaces, c = ' ') ∧ Alternates (some .blank) more ∧
      ∀ next ∈ more.head?, ∀ c ∈ next, runKind c = .word := by
  have hbreak : ∀ c ∈ word ++ (spaces ++ more.flatten),
      Style.isBreak c = false := fun c hc =>
        (hplain.visible c (by simpa using hc)).2
  obtain ⟨first, hfirst⟩ : ∃ c, c ∈ word := by
    cases hturns with
    | cons _ hnonempty => exact List.exists_mem_of_ne_nil _ hnonempty
  cases hturns with
  | cons _ _ hown hrest =>
      obtain rfl := (hown first hfirst).symm.trans (hword first hfirst)
      cases hrest with
      | @cons _ kind _ _ hturn hnonempty hkind hrest =>
          obtain ⟨c, hc⟩ := List.exists_mem_of_ne_nil _ hnonempty
          have hblank : kind = .blank := by
            cases kind with
            | blank => rfl
            | word => exact absurd rfl hturn
            | lineBreak =>
                have hfalse := hbreak c (by simp [hc])
                rw [runKind_eq_lineBreak_iff.mp (hkind c hc)] at hfalse
                cases hfalse
          subst hblank
          refine ⟨hnonempty, fun d hd =>
            runKind_eq_blank_iff.mp (hkind d hd), hrest, ?_⟩
          intro next hnext d hd
          cases hrest with
          | nil => cases hnext
          | @cons _ kind _ others hturn _ hkind _ =>
              cases hnext
              rw [hkind d hd]
              cases kind with
              | word => rfl
              | blank => exact absurd rfl hturn
              | lineBreak =>
                  have hfalse := hbreak d (by simp [hd])
                  rw [runKind_eq_lineBreak_iff.mp (hkind d hd)] at hfalse
                  cases hfalse

/-- What is written between two words is read as the blanks that stand there. -/
theorem scanPlainBlanks_written (fold : Bool) {least : Int} {indent count : Nat}
    (hleast : least ≤ indent) (hindent : 0 < indent) (hcount : 0 < count)
    {out : List Char} (hcolumn : least ≤ columnOf out) :
    ∃ gap broken, (∃ c ∈ gap.head?, endsToken c = true) ∧
      (if mayBreak fold (List.replicate count ' ')
        (.behind out false false) then
          (Pen.behind out false false).breakTo indent
        else (Pen.behind out false false).write (List.replicate count ' ')) =
          .behind (gap.reverse ++ out) false false ∧
        least ≤ columnOf (gap.reverse ++ out) ∧
        ∀ rest, Solid rest → scanPlainBlanks (.behind out (gap ++ rest)) =
          .ok ((List.replicate count ' ', broken),
            .behind (gap.reverse ++ out) rest) := by
  cases hbreak :
    mayBreak fold (List.replicate count ' ') (.behind out false false) with
  | true =>
      have hone : List.replicate count ' ' = [' '] := by
        simp only [mayBreak, Bool.and_eq_true, beq_iff_eq] at hbreak
        exact hbreak.1.2
      have hline : ('\n' :: List.replicate indent ' ').reverse ++ out =
          Pen.line indent out := by
        simp [Pen.line]
      refine ⟨'\n' :: List.replicate indent ' ', true, ⟨_, rfl, rfl⟩, ?_, ?_,
        fun rest hrest => ?_⟩
      · rw [if_pos rfl, Pen.breakTo_line, hline]
      · rw [hline, Pen.columnOf_line]
        exact hleast
      · rw [hone, hline]
        exact scanPlainBlanks_line hrest (unmarked_spaces hindent rest)
  | false =>
      refine ⟨List.replicate count ' ', false, ⟨' ', ?_, rfl⟩, ?_, ?_,
        fun rest hrest => ?_⟩
      · rw [List.head?_replicate, if_neg (by omega)]
        rfl
      · rw [if_neg (by decide), Pen.write_spaces, List.reverse_replicate]
      · rw [List.reverse_replicate, columnOf_spaces]
        omega
      · rw [List.reverse_replicate]
        exact scanPlainBlanks_spaces hrest

/-- A word and the runs after it are written as a text that begins with the word
and is read from there on up to where the plain text ends. -/
def ReadsRuns (fold : Bool) (least : Int) (indent : Nat) (out word : List Char)
    (tail : List (List Char)) : Prop :=
  ∃ chunk, writePlainRuns fold indent (.behind out false false) (word :: tail) =
      .behind (chunk.reverse ++ out) false false ∧ word <+: chunk ∧
    ∀ {rest : List Char} {broken : Bool} {last : Cursor},
      EndsPlain least (chunk.reverse ++ out) rest broken last →
      ∀ {fuel : Nat} (blanks : List Char) (early : Bool),
        (chunk ++ rest).length < fuel →
        scanPlainFrom false least fuel blanks early
          (.behind out (chunk ++ rest)) =
          .ok ((blanks ++ (word :: tail).flatten, broken), last)

theorem readsRuns_word (fold : Bool) {least : Int} {indent : Nat}
    {word out : List Char} {previous : Char} (hnonempty : word ≠ [])
    (hword : ∀ c ∈ word, runKind c = .word) (hplain : PlainFrom previous word) :
    ReadsRuns fold least indent out word [] := by
  have hplain : PlainFrom previous (word ++ []) := by simpa using hplain
  have hchars := hplain.word hword
  refine ⟨word, writePlainRuns_word fold indent hword
    (fun c hc => (hchars c hc).2.1) [], List.prefix_rfl, ?_⟩
  rintro rest broken last ⟨hstop, spaces, hblanks, hends⟩
    (_ | fuel) blanks early hfuel
  · omega
  · have hlength :=
      plainLength_append hplain.unmarked
        (fun c hc => (hchars c hc).2.2) rfl hstop
    rw [scanPlainFrom_word hnonempty (by simpa using hplain.hash)
      (fun c hc => (hchars c hc).1) hlength hblanks, if_pos hends]
    simp

theorem readsRuns_gap (fold : Bool) {least : Int} {indent count : Nat}
    (hleast : least ≤ indent) (hindent : 0 < indent) (hcount : 0 < count)
    {out word next : List Char} {more : List (List Char)} {previous : Char}
    (hnonempty : word ≠ []) (hword : ∀ c ∈ word, runKind c = .word)
    (hnonempty' : next ≠ []) (hnext : ∀ c ∈ next, runKind c = .word)
    (hplain : PlainFrom previous
      (word ++ (List.replicate count ' ' ++ (next :: more).flatten)))
    (hcolumn : least ≤ columnOf out + 1)
    (hmore : ∀ out, least ≤ columnOf out →
      ReadsRuns fold least indent out next more) :
    ReadsRuns fold least indent out word
      (List.replicate count ' ' :: next :: more) := by
  have hchars := hplain.word hword
  have hspaces : List.replicate count ' ' ≠ [] := by
    simpa using hcount.ne'
  have hlater : PlainFrom ' ' (next :: more).flatten :=
    hplain.drop (fun c hc => List.eq_of_mem_replicate hc) hspaces
  have hafter : least ≤ columnOf (word.reverse ++ out) := by
    rw [columnOf_append fun c hc =>
      (hchars c (List.mem_reverse.mp hc)).2.1, List.length_reverse]
    have hpositive := List.length_pos_iff.mpr hnonempty
    omega
  obtain ⟨gap, broken, ⟨first, hgapHead, hgapEnds⟩, hgap, hcolumn, hblanks⟩ :=
    scanPlainBlanks_written fold hleast hindent hcount hafter
  obtain ⟨chunk, hchunk, ⟨ending, rfl⟩, hreads⟩ := hmore _ hcolumn
  refine ⟨word ++ (gap ++ (next ++ ending)), ?_, ⟨_, rfl⟩, ?_⟩
  · rw [writePlainRuns_word fold indent hword fun c hc =>
      (hchars c hc).2.1, writePlainRuns, hgap, hchunk]
    simp
  · rintro rest later last hends (_ | fuel) blanks early hfuel
    · omega
    · obtain ⟨hsolid, hhash⟩ :=
        PlainFrom.starts (by simpa using hlater) hnext hnonempty'
          (ending ++ rest)
      have hwordEnds :
          Style.wordEnds
            (List.replicate count ' ' ++ (next :: more).flatten) = true := by
        obtain ⟨less, rfl⟩ := Nat.exists_eq_succ_of_ne_zero hcount.ne'
        rfl
      have hstop : plainLength false (gap ++ (next ++ (ending ++ rest))) =
          0 := by
        obtain ⟨others, rfl⟩ := List.head?_eq_some_iff.mp hgapHead
        simp [plainLength, hgapEnds]
      have hfirst : word.head? ≠ some '#' := by
        simpa only [List.append_nil]
          using (hplain.starts hword hnonempty []).2
      have hlast : (word ++ (gap ++ (next ++ ending))).reverse ++ out =
          (next ++ ending).reverse ++
          (gap.reverse ++ (word.reverse ++ out)) := by simp
      have hless : (next ++ ending ++ rest).length < fuel := by
        have hpositive := List.length_pos_iff.mpr hnonempty
        simp only [List.length_append] at hfuel ⊢
        omega
      rw [hlast] at hends
      have hread := hreads hends (List.replicate count ' ') broken hless
      rw [List.append_assoc] at hread
      rw [List.append_assoc, List.append_assoc, List.append_assoc,
        scanPlainFrom_gap hnonempty hfirst (fun c hc => (hchars c hc).1)
          (plainLength_append hplain.unmarked
            (fun c hc => (hchars c hc).2.2) hwordEnds hstop)
          (hblanks _ hsolid) hspaces hhash hcolumn,
        hread]
      simp [Except.map]

/-- A text without marks is read from a word on up to where it was written
to. -/
theorem readsRuns (fold : Bool) {least : Int} {indent : Nat}
    (hleast : least ≤ indent) (hindent : 0 < indent) :
    ∀ (tail : List (List Char)) {before : Option RunKind} {word : List Char}
      {previous : Char} (out : List Char),
      Alternates before (word :: tail) → (∀ c ∈ word, runKind c = .word) →
      PlainFrom previous (word :: tail).flatten → least ≤ columnOf out + 1 →
      ReadsRuns fold least indent out word tail
  | [], _, word, _, _, hturns, hword, hplain, _ => by
      have hnonempty : word ≠ [] := by cases hturns; assumption
      exact readsRuns_word fold hnonempty hword (by simpa using hplain)
  | [_], _, _, _, _, hturns, hword, hplain, _ => by
      obtain ⟨hnonempty, hblank, -, -⟩ := kinds_of_plain hturns hword hplain
      refine absurd (hblank _ (List.getLast_mem hnonempty)) (hplain.last _ ?_)
      simp [List.getLast?_append, List.getLast?_eq_some_getLast hnonempty]
  | spaces :: next :: more, _, word, previous, out, hturns, hword, hplain,
      hcolumn => by
        obtain ⟨hnonempty, hblank, hrest, hkind⟩ :=
          kinds_of_plain hturns hword hplain
        have hnext := hkind next rfl
        have hwords : word ≠ [] := by cases hturns; assumption
        have hnexts : next ≠ [] := by cases hrest; assumption
        obtain ⟨count, rfl⟩ : ∃ count, spaces = List.replicate count ' ' :=
          ⟨_, List.eq_replicate_of_mem hblank⟩
        have hcount : 0 < count := by
          simpa [Nat.pos_iff_ne_zero] using hnonempty
        have hplain : PlainFrom previous (word ++
            (List.replicate count ' ' ++ (next :: more).flatten)) := by
          simpa using hplain
        have hlater := hplain.drop hblank hnonempty
        exact readsRuns_gap fold hleast hindent hcount hwords hword hnexts hnext
          hplain hcolumn fun out hafter =>
            readsRuns fold hleast hindent more out hrest hnext hlater
              (by omega)

namespace Style

theorem hasBreakBlank_of_line {chars : List Char}
    (hline : isMultiline chars = false) :
    hasBreakBlank chars = false := by
  induction chars with
  | nil => rfl
  | cons a rest ih =>
      simp only [isMultiline, List.any_cons, Bool.or_eq_false_iff] at hline
      cases rest with
      | nil => rfl
      | cons b more =>
          have hmore := hline.2
          simp only [List.any_cons, Bool.or_eq_false_iff] at hmore
          have hrest := ih hline.2
          unfold hasBreakBlank at hrest ⊢
          simp only [hasNeighbours, hline.1, hmore.1, Bool.false_and,
            Bool.and_false, Bool.or_self, Bool.false_or]
          exact hrest

theorem allowsPlain_iff {chars : List Char} :
    allowsPlain chars = true ↔
      (∀ c ∈ chars, isSpecial c = false ∧ isBreak c = false) ∧
        hasIndicator chars = false ∧ (∀ c ∈ chars.head?, c ≠ ' ') ∧
          ∀ c ∈ chars.getLast?, c ≠ ' ' := by
  have hends {found : Option Char} (hvisible : ∀ c ∈ found, isBreak c = false) :
      (found.map isBlankOrBreak).getD false = false ↔ ∀ c ∈ found, c ≠ ' ' := by
    cases found with
    | none => simp
    | some c => simp [isBlankOrBreak, hvisible c rfl]
  simp only [allowsPlain, allowsSingle, Bool.and_eq_true, Bool.not_eq_true',
    List.any_eq_false, Bool.not_eq_true]
  constructor
  · rintro ⟨⟨⟨⟨⟨-, hspecial⟩, hline⟩, hindicator⟩, hfirst⟩, hlast⟩
    have hbreak : ∀ c ∈ chars, isBreak c = false := by
      simpa [isMultiline] using hline
    exact ⟨fun c hc => ⟨hspecial c hc, hbreak c hc⟩, hindicator,
      (hends fun c hc => hbreak c (List.mem_of_head? hc)).mp hfirst,
      (hends fun c hc => hbreak c (List.mem_of_getLast? hc)).mp hlast⟩
  · rintro ⟨hvisible, hindicator, hfirst, hlast⟩
    have hbreak : ∀ c ∈ chars, isBreak c = false := fun c hc =>
      (hvisible c hc).2
    have hline : isMultiline chars = false := by
      simpa [isMultiline] using hbreak
    exact ⟨⟨⟨⟨⟨hasBreakBlank_of_line hline, fun c hc => (hvisible c hc).1⟩,
      hline⟩, hindicator⟩,
      (hends fun c hc => hbreak c (List.mem_of_head? hc)).mpr hfirst⟩,
      (hends fun c hc => hbreak c (List.mem_of_getLast? hc)).mpr hlast⟩

end Style

theorem plainFrom_of_allowsPlain {chars : List Char}
    (hplain : Style.allowsPlain chars = true) (previous : Char) :
    PlainFrom previous chars := by
  obtain ⟨hvisible, hindicator, -, hlast⟩ := Style.allowsPlain_iff.mp hplain
  cases chars with
  | nil => exact ⟨hvisible, rfl, by simp, hlast⟩
  | cons c rest =>
      simp only [Style.hasIndicator, Bool.or_eq_false_iff] at hindicator
      obtain ⟨⟨⟨-, hleading⟩, hword⟩, hmarks⟩ := hindicator
      have hhash : c ≠ '#' := by
        rintro rfl
        exact absurd hleading (by decide)
      have hcolon : (c == ':' && Style.wordEnds rest) = false := by
        rw [Bool.and_eq_false_iff] at hword ⊢
        exact hword.imp_left fun hother => by simp_all
      refine ⟨hvisible, ?_, by simpa using hhash, hlast⟩
      simp [Style.hasMark, hcolon, hmarks, beq_eq_false_iff_ne.mpr hhash]

theorem scanPlain_written (fold : Bool) {parent : Int} {indent : Nat}
    (hparent : parent < indent) (hindent : 0 < indent) {chars : List Char}
    (hplain : Style.allowsPlain chars = true) (hnonempty : chars ≠ [])
    (out : List Char) (fresh : Bool) (hcolumn : parent ≤ columnOf out) :
    ∃ chunk, writePlain fold indent chars (.behind out true fresh) =
        .behind (chunk.reverse ++ out) false false ∧
      (∃ word more later, word ≠ [] ∧ chunk = word ++ more ∧
        chars = word ++ later ∧ ∀ c ∈ later.head?, c = ' ') ∧
      ∀ {rest : List Char} {broken : Bool} {last : Cursor},
        EndsPlain (parent + 1) (chunk.reverse ++ out) rest broken last →
        scanPlain false parent (.behind out (chunk ++ rest)) =
          .ok ((String.ofList chars, broken), last) := by
  have hflatten := flatten_runs chars
  have hturns := alternates_runs chars
  obtain ⟨word, tail, hruns⟩ : ∃ word tail, runs chars = word :: tail := by
    refine List.exists_cons_of_ne_nil fun hnil => hnonempty ?_
    rw [← hflatten, hnil]
    rfl
  rw [hruns] at hflatten hturns
  have hfrom := plainFrom_of_allowsPlain hplain ' '
  obtain ⟨hvisible, -, hfirst, -⟩ := Style.allowsPlain_iff.mp hplain
  -- the first run cannot be blanks, for the text would start with them
  have hword : ∀ c ∈ word, runKind c = .word := by
    cases hturns with
    | @cons _ kind _ _ _ hnonempty hkind _ =>
        obtain ⟨first, more, rfl⟩ := List.exists_cons_of_ne_nil hnonempty
        have hmem : first ∈ chars := by simp [← hflatten]
        have hhead : chars.head? = some first := by simp [← hflatten]
        have hown : runKind first = .word :=
          runKind_eq_word_iff.mpr ⟨hfirst first hhead, (hvisible first hmem).2⟩
        rw [hkind first List.mem_cons_self] at hown
        exact hown ▸ hkind
  have hwords : word ≠ [] := by cases hturns; assumption
  rw [← hflatten] at hfrom
  have hleast : parent + 1 ≤ indent := by omega
  obtain ⟨chunk, hchunk, ⟨more, rfl⟩, hreads⟩ :=
    readsRuns fold hleast hindent tail out hturns hword hfrom (by omega)
  refine ⟨word ++ more, ?_,
    ⟨word, more, tail.flatten, hwords, rfl, hflatten.symm, ?_⟩,
    fun {rest broken last} hends => ?_⟩
  · rw [writePlain, if_neg (by simpa using hnonempty), hruns]
    exact hchunk
  · cases tail with
    | nil => simp
    | cons spaces others =>
        obtain ⟨hnonempty, hblank, -⟩ := kinds_of_plain hturns hword hfrom
        intro c hc
        rw [List.flatten_cons, List.head?_append_of_ne_nil _ hnonempty] at hc
        exact hblank c (List.mem_of_head? hc)
  · rw [scanPlain, bind_of (remaining_apply _)]
    simp only [behind_rest]
    rw [bind_of (hreads hends [] false (Nat.lt_add_one _)),
      List.nil_append, hflatten]
    rfl

end Fragments.Yaml
