import Fragments.Proofs.Yaml.Texts

namespace Fragments.Yaml

open Cursor Scanner

/-- A key as it is written in front of its colon. -/
def keyChars (key : String) : List Char :=
  match Style.ofText true key with
  | .plain => key.toList
  | .single => '\'' :: doubleQuotes key.toList ++ ['\'']
  | .double =>
      '"' :: (key.toList.flatMap fun c => if needsEscape c then escaped c
        else [c]) ++ ['"']

/-- A key that announces itself is found only when its colon is not too far
away. -/
def fitsKey (key : String) : Bool :=
  !isSimpleKey key || (keyChars key).length ≤ 1024

def keyToken (key : String) : Token :=
  .scalar key (Style.ofText true key == .plain)

theorem writePlainRuns_key (indent : Nat) (all : List (List Char)) (pen : Pen) :
    writePlainRuns false indent pen all = pen.write all.flatten := by
  induction all generalizing pen with
  | nil => rfl
  | cons run rest ih =>
      rw [writePlainRuns, mayBreak, Bool.false_and, Bool.false_and,
        if_neg (by decide), ih, Pen.write_write]
      rfl

theorem writeSingleRuns_key (indent : Nat) (first : Bool)
    (all : List (List Char))
    (hline : ∀ c ∈ all.flatten, Style.isBreak c = false) (pen : Pen) :
    writeSingleRuns false indent first pen all =
      pen.write (doubleQuotes all.flatten) := by
  induction all generalizing pen first with
  | nil => rfl
  | cons run rest ih =>
      have hlead : (run.head?.map Style.isBreak).getD false = false := by
        cases run with
        | nil => rfl
        | cons c more => exact hline c (by simp)
      rw [writeSingleRuns_cons, writeSingleRun, hlead, if_neg (by decide),
        mayBreak, Bool.false_and, Bool.false_and, Bool.and_false,
        if_neg (by decide), ih _ fun c hc => hline c (by simp [hc]),
        Pen.write_write]
      simp [doubleQuotes]

theorem writeDoubleChars_key (indent : Nat) (bare first : Bool)
    (chars : List Char) (pen : Pen) :
    writeDoubleChars false indent pen bare first chars =
      pen.write (chars.flatMap fun c => if needsEscape c then escaped c
        else [c]) := by
  induction chars generalizing pen bare first with
  | nil => rfl
  | cons c rest ih =>
      rw [writeDoubleChars, List.flatMap_cons]
      simp only [Bool.false_and, Bool.false_eq_true, if_false, ih]
      split <;> rw [Pen.write_write]

theorem isSimpleKey_iff {key : String} :
    isSimpleKey key = true ↔ key.isEmpty = false ∧
      (∀ c ∈ key.toList, Style.isBreak c = false) ∧
        key.length + "!!str".length < 128 := by
  simp [isSimpleKey, Style.isMultiline, and_assoc]

theorem heardSingle_line {chars : List Char}
    (hline : ∀ c ∈ chars, Style.isBreak c = false) :
    heardSingle chars = chars := by
  have hruns : ∀ run ∈ runs chars, heardRun run = run := by
    intro run hrun
    refine heardRun_of_not_break fun c hc => hline c ?_
    rw [← flatten_runs chars]
    exact List.mem_flatten.mpr ⟨run, hrun, hc⟩
  calc heardSingle chars = ((runs chars).map heardRun).flatten :=
    List.flatMap_def ..
    _ = ((runs chars).map id).flatten := by rw [List.map_congr_left hruns]; rfl
    _ = chars := by rw [List.map_id, flatten_runs]

theorem inline_of_visible {c : Char} (hvisible : Style.isSpecial c = false)
    (hbreak : Style.isBreak c = false) : Inline c :=
  have htame := Style.tame_of_isSpecial hvisible
  ⟨htame, (isBreak_eq htame).trans hbreak⟩

theorem mem_of_mem_doubleQuotes {c : Char} {chars : List Char}
    (hc : c ∈ doubleQuotes chars) :
    c ∈ chars := by
  obtain ⟨d, hd, hc⟩ := List.mem_flatMap.mp hc
  split at hc <;> simp_all

theorem replicate_prefix_of_append {mark : Char} (hmark : mark ≠ ':')
    {count : Nat} {chars rest : List Char}
    (hmarked : List.replicate count mark <+: chars ++ ':' :: rest) :
    List.replicate count mark <+: chars := by
  rcases Nat.lt_or_ge chars.length count with hshort | hlong
  · have hwhole : chars ++ [':'] <+: List.replicate count mark :=
      List.prefix_of_prefix_length_le ⟨rest, by simp⟩ hmarked
        (by simpa using Nat.succ_le_of_lt hshort)
    have hmem : ':' ∈ List.replicate count mark := hwhole.subset (by simp)
    exact absurd (List.eq_of_mem_replicate hmem).symm hmark
  · exact List.prefix_of_prefix_length_le hmarked (List.prefix_append _ _)
      (by simpa using hlong)

/-- A plain text ends at a colon with the end of a token behind it. -/
theorem endsPlain_colon {least : Int} {out : List Char} {next : Char}
    (hnext : endsToken next = true) (rest : List Char) :
    EndsPlain least out (':' :: next :: rest) false
      (.behind out (':' :: next :: rest)) := by
  have hsolid : Solid (':' :: next :: rest) := by
    rintro _ ⟨⟩
    decide
  have hblanks :
      scanPlainBlanks
        (.behind out (List.replicate 0 ' ' ++ ':' :: next :: rest)) = _ :=
    scanPlainBlanks_spaces hsolid
  exact ⟨by simp [plainLength, hnext], [], hblanks, rfl⟩

section

variable {key : String} (hkey : isSimpleKey key = true)
include hkey

theorem inline_of_keyChars : ∀ c ∈ keyChars key, Inline c := by
  have hline := (isSimpleKey_iff.mp hkey).2.1
  unfold keyChars
  cases hstyle : Style.ofText true key with
  | plain =>
      obtain ⟨hvisible, -⟩ :=
        Style.allowsPlain_iff.mp (Style.ofText_eq_plain hstyle).2.1
      exact fun c hc => inline_of_visible (hvisible c hc).1 (hline c hc)
  | single =>
      have hbody : ∀ c ∈ doubleQuotes key.toList, Inline c := fun c hc =>
        inline_of_visible
          (Style.isSpecial_of_single hstyle c (mem_of_mem_doubleQuotes hc))
          (hline c (mem_of_mem_doubleQuotes hc))
      have hquote : Inline '\'' := by decide
      simpa [or_imp, forall_and, hquote] using hbody
  | double =>
      have hbody : ∀ c ∈ key.toList.flatMap fun c => if needsEscape c then
          escaped c else [c], Inline c := by
        intro c hc
        obtain ⟨d, -, hc⟩ := List.mem_flatMap.mp hc
        split at hc
        · exact inline_of_escaped d c hc
        · next hplain =>
            obtain rfl := List.mem_singleton.mp hc
            exact inline_of_needsEscape (by simpa using hplain)
      have hquote : Inline '"' := by decide
      intro c hc
      simp only [List.cons_append, List.mem_cons, List.mem_append,
        List.not_mem_nil, or_false] at hc
      rcases hc with rfl | hc | rfl
      · exact hquote
      · exact hbody c hc
      · exact hquote

theorem writeText_key (indent : Nat) (out : List Char) (fresh : Bool) :
    writeText true indent key (.behind out true fresh) =
      .behind ((keyChars key).reverse ++ out) false false := by
  have hinline := inline_of_keyChars hkey
  have hline := (isSimpleKey_iff.mp hkey).2.1
  have hwrite (out : List Char) {chars : List Char}
      (hchars : ∀ c ∈ chars, c ∈ keyChars key) :
      (Pen.behind out false false).write chars =
        .behind (chars.reverse ++ out) false false :=
    Pen.write_behind fun c hc => (hinline c (hchars c hc)).2
  unfold writeText
  cases hstyle : Style.ofText true key with
  | plain =>
      have hkeyChars : keyChars key = key.toList := by rw [keyChars, hstyle]
      rw [hkeyChars] at hwrite ⊢
      have hnonempty := (Style.ofText_eq_plain hstyle).2.2
      show writePlain false indent key.toList (.behind out true fresh) = _
      rw [writePlain, if_neg (by simpa using hnonempty)]
      show writePlainRuns false indent (.behind out false false)
          (runs key.toList) = _
      rw [writePlainRuns_key, flatten_runs, hwrite out fun c hc => hc]
  | single =>
      have hkeyChars : keyChars key = '\'' :: doubleQuotes key.toList ++
          ['\''] := by
        rw [keyChars, hstyle]
      rw [hkeyChars] at hwrite ⊢
      show writeSingle false indent key.toList (.behind out true fresh) = _
      rw [writeSingle, Pen.mark_behind (by decide), Bool.and_false,
        Bool.true_or, if_pos rfl,
        writeSingleRuns_key indent true _ (by rwa [flatten_runs]), flatten_runs,
        hwrite _ (by simp +contextual), Pen.mark_behind (by decide)]
      simp
  | double =>
      have hkeyChars : keyChars key =
          '"' :: (key.toList.flatMap fun c => if needsEscape c then escaped c
            else [c]) ++ ['"'] := by
        rw [keyChars, hstyle]
      rw [hkeyChars] at hwrite ⊢
      show writeDouble false indent key.toList (.behind out true fresh) = _
      rw [writeDouble, Pen.mark_behind (by decide), Bool.and_false,
        Bool.true_or, if_pos rfl, writeDoubleFrom_eq, writeDoubleChars_key]
      rw [List.reverse_nil, Pen.write_nil,
        hwrite _ (fun c hc => by
          simp only [List.cons_append, List.mem_cons, List.mem_append, hc,
            true_or, or_true]), Pen.mark_behind (by decide)]
      simp

/-- The reader passes over a key up to its colon. -/
theorem fetch_keyChars (indent : Int) {out : List Char}
    (hindent : indent ≤ columnOf out)
    (hmarks : columnOf out = 0 →
      ∀ rest, Scan.Unmarked (keyChars key ++ ':' :: rest)) {next : Char}
    (hnext : endsToken next = true) (rest : List Char) (tokens : List Token)
    (indents : List Int) :
    (behind out (keyChars key ++ ':' :: next :: rest) tokens indent indents
      true).fetch =
      .ok ⟨.behind ((keyChars key).reverse ++ out) (':' :: next :: rest),
        keyToken key :: tokens, (keyToken key :: tokens).length, indent,
        indents, 0, false, noted out tokens indent true⟩ := by
  have hwritten := writeText_key hkey (columnOf out + 1) out false
  have hline := (isSimpleKey_iff.mp hkey).2.1
  have hsame {chunk : List Char}
      (hchunk : Pen.behind (chunk.reverse ++ out) false false =
      .behind ((keyChars key).reverse ++ out) false false) :
        chunk = keyChars key := by
    simpa using congrArg Pen.out hchunk
  unfold writeText at hwritten
  unfold keyToken
  cases hstyle : Style.ofText true key with
  | plain =>
      rw [hstyle] at hwritten
      have hkeyChars : keyChars key = key.toList := by rw [keyChars, hstyle]
      obtain ⟨-, hplain, hnonempty⟩ := Style.ofText_eq_plain hstyle
      have hparent : indent < (columnOf out + 1 : Nat) := by omega
      obtain ⟨chunk, hchunk, -, hscan⟩ :=
        scanPlain_written false hparent (Nat.succ_pos _) hplain hnonempty out
          false hindent
      obtain rfl := hsame (hchunk.symm.trans hwritten)
      have hraw := fetchPlain_behind (hscan (endsPlain_colon hnext rest)) tokens
        indents true
      obtain ⟨first, letters, hfirst⟩ := List.exists_cons_of_ne_nil hnonempty
      have hlater : ∀ c ∈ ([] : List Char).head?, c = ' ' := by simp
      obtain ⟨hmark, hend, -, hafter⟩ :=
        plain_starts hplain (by simpa using hfirst) hlater
      rw [String.ofList_toList] at hraw
      refine Eq.trans ?_ hraw
      rw [hkeyChars, hfirst] at hmarks ⊢
      exact fetch_plain out tokens indent indents true hmark hend (hafter _)
        fun hzero =>
          hmarks hzero _
  | single =>
      rw [hstyle] at hwritten
      obtain ⟨body, hbody, hscan⟩ :=
        scanQuoted_single false (Nat.succ_pos (columnOf out))
          (Style.ofText_eq_single hstyle).1 out false
      have hkeyChars := hsame (hbody.symm.trans hwritten)
      have hscanned :=
        hscan (show ∀ c ∈ (':' :: next :: rest).head?, c ≠ '\'' by simp)
      have hstep := map_apply (Token.scalar · false) hscanned
      rw [heardSingle_line hline, String.ofList_toList, hkeyChars] at hstep
      rw [fetch_single (by rw [← hkeyChars]; rfl)]
      exact fetchNode_behind hstep tokens indent indents true
  | double =>
      rw [hstyle] at hwritten
      obtain ⟨body, hbody, hscan⟩ :=
        scanQuoted_double false (Nat.succ_pos (columnOf out)) key.toList out
          false (fun h => by cases h)
      have hkeyChars := hsame (hbody.symm.trans hwritten)
      have hstep := map_apply (Token.scalar · false)
        (hscan (':' :: next :: rest))
      rw [heardDouble, Bool.false_and, heardDoubleFrom_false,
        String.ofList_toList, hkeyChars] at hstep
      rw [fetch_double (by rw [← hkeyChars]; rfl)]
      exact fetchNode_behind hstep tokens indent indents true

omit hkey in
theorem keyChars_ne_nil : keyChars key ≠ [] := by
  unfold keyChars
  cases hstyle : Style.ofText true key with
  | plain => exact (Style.ofText_eq_plain hstyle).2.2
  | single => simp
  | double => simp

omit hkey in
theorem starts_keyChars : Starts (keyChars key) := by
  intro c hc
  unfold keyChars at hc
  cases hstyle : Style.ofText true key with
  | single =>
      rw [hstyle] at hc
      obtain rfl : '\'' = c := Option.some.inj hc
      decide
  | double =>
      rw [hstyle] at hc
      obtain rfl : '"' = c := Option.some.inj hc
      decide
  | plain =>
      rw [hstyle] at hc
      have hplain := (Style.ofText_eq_plain hstyle).2.1
      obtain ⟨more, hmore⟩ := List.head?_eq_some_iff.mp hc
      have hnone : ∀ d ∈ ([] : List Char).head?, d = ' ' := by simp
      obtain ⟨hmark, hend, hbreak, -⟩ :=
        plain_starts hplain (by simpa using hmore) hnone
      refine ⟨?_, ?_, hbreak⟩
      · rintro rfl
        cases hend
      · rintro rfl
        exact absurd hmark (by decide)

omit hkey in
theorem unmarked_keyChars (rest : List Char) :
    Scan.Unmarked (keyChars key ++ ':' :: rest) := by
  unfold keyChars
  cases hstyle : Style.ofText true key with
  | single => exact Scan.unmarked_cons (by decide) (by decide) _
  | double => exact Scan.unmarked_cons (by decide) (by decide) _
  | plain =>
      obtain ⟨-, hplain, hnonempty⟩ := Style.ofText_eq_plain hstyle
      obtain ⟨-, hindicator, -⟩ := Style.allowsPlain_iff.mp hplain
      obtain ⟨first, more, hfirst⟩ := List.exists_cons_of_ne_nil hnonempty
      show Scan.Unmarked (key.toList ++ ':' :: rest)
      rw [hfirst] at hindicator ⊢
      simp only [Style.hasIndicator, Bool.or_eq_false_iff] at hindicator
      obtain ⟨⟨⟨⟨hdash, hdot⟩, -⟩, -⟩, -⟩ := hindicator
      constructor
      · intro hwhole
        have hmarked := replicate_prefix_of_append (by decide) hwhole
        rw [← List.isPrefixOf_iff_prefix] at hmarked
        exact absurd (hdash.symm.trans hmarked) (by decide)
      · intro hwhole
        have hmarked := replicate_prefix_of_append (by decide) hwhole
        rw [← List.isPrefixOf_iff_prefix] at hmarked
        exact absurd (hdot.symm.trans hmarked) (by decide)

/-- The colon of a key that is written too long comes too late. -/
theorem halts_key (hlong : 1024 < (keyChars key).length) {indent : Int}
    {out rest : List Char} (hindent : indent ≤ columnOf out) {next : Char}
    (hnext : endsToken next = true) (tokens : List Token) (indents : List Int) :
    Halts (behind out (keyChars key ++ ':' :: next :: rest) tokens indent
      indents true) := by
  have hinline := inline_of_keyChars hkey
  have hfetch :=
    fetch_keyChars hkey indent hindent (fun _ rest => unmarked_keyChars rest)
      hnext rest tokens indents
  have hunwind :
      (behind out (keyChars key ++ ':' :: next :: rest) tokens indent indents
        true).unwind (columnOf out) =
        behind out (keyChars key ++ ':' :: next :: rest) tokens indent
          indents true :=
    unwind_of_le hindent
  have hsome : (keyChars key ++ ':' :: next :: rest).isEmpty = false := by simp
  have hfar : ∀ key' ∈ noted out tokens indent true,
      1024 < ((keyChars key).reverse ++ out).length - key'.2.index := by
    intro key' hkey'
    obtain rfl := List.mem_singleton.mp hkey'
    simpa using hlong
  have hcolon : Starts (':' :: next :: rest) := by
    rintro _ ⟨⟩
    decide
  have hrests :
      (Scanner.mk (.behind ((keyChars key).reverse ++ out)
        (':' :: next :: rest)) (keyToken key :: tokens)
        (keyToken key :: tokens).length indent indents 0 false
      (noted out tokens indent true)).rests = _ :=
    rests_far (by simp [keyChars_ne_nil]) rfl hfar hcolon
  cases hrequired : indent == (columnOf out : Int) with
  | true =>
      refine .of_rests hunwind hsome hfetch (hrests.trans (if_pos ?_))
      simpa [noted] using hrequired
  | false =>
      have hsettled := hrests.trans (if_neg (by simpa [noted] using hrequired))
      have hcolumn :
          columnOf out ≤ columnOf ((keyChars key).reverse ++ out) := by
        rw [columnOf_append fun c hc => (hinline c (List.mem_reverse.mp hc)).2]
        exact Nat.le_add_right _ _
      have hmissed :
          (behind ((keyChars key).reverse ++ out) (':' :: next :: rest)
            (keyToken key :: tokens) indent indents false).fetch =
            .error .malformed := by
        rw [fetch_value rfl (by exact hnext)]
        rfl
      refine (Leads.step hunwind ?_ hfetch hsettled).halts
        (.of_fetch (unwind_of_le (by simp; omega)) rfl hmissed)
      have hpositive : 0 < (keyChars key).length :=
        List.length_pos_iff.mpr keyChars_ne_nil
      simp
      omega

theorem leads_key (hlong : (keyChars key).length ≤ 1024) {indent : Int}
    {out rest : List Char} (hindent : indent ≤ columnOf out) {next : Char}
    (hnext : endsToken next = true) {tokens : List Token} {indents : List Int}
    {settled : Scanner}
    (hrests : (behind (':' :: ((keyChars key).reverse ++ out)) (next :: rest)
      (.value :: keyToken key :: .key ::
        openedTokens (columnOf out) .blockMappingStart indent tokens)
      (columnOf out)
      (openedIndents (columnOf out) indent indents) false).rests = .ok settled)
    (hless : settled.cursor.rest.length ≤ (next :: rest).length) :
    Leads (behind out (keyChars key ++ ':' :: next :: rest) tokens indent
      indents true) settled := by
  have hinline := inline_of_keyChars hkey
  have hfetch :=
    fetch_keyChars hkey indent hindent (fun _ rest => unmarked_keyChars rest)
      hnext rest tokens indents
  have hcolumn : columnOf out ≤ columnOf ((keyChars key).reverse ++ out) := by
    rw [columnOf_append fun c hc => (hinline c (List.mem_reverse.mp hc)).2]
    exact Nat.le_add_right _ _
  have hline : out.countP isBreak =
      ((keyChars key).reverse ++ out).countP isBreak := by
    have hnone : (keyChars key).countP isBreak = 0 :=
      List.countP_eq_zero.mpr fun c hc => by simp [(hinline c hc).2]
    rw [List.countP_append, List.countP_reverse, hnone, Nat.zero_add]
  have hout : (keyChars key).reverse ++ out ≠ [] := by
    simp [keyChars_ne_nil]
  refine (Leads.step (unwind_of_le (by simpa using hindent)) ?_ hfetch
    (rests_key hout rfl (fun noted hnoted => ?_) ?_)).trans
    (Leads.step (unwind_of_le (by simp; omega)) ?_ ((fetch_value rfl ?_).trans
      (fetchValue_noted hindent _ _ _)) hrests)
  · have hpositive : 0 < (keyChars key).length :=
      List.length_pos_iff.mpr keyChars_ne_nil
    simp
    omega
  · obtain rfl := List.mem_singleton.mp hnoted
    exact ⟨hline, by simpa using hlong⟩
  · rintro _ ⟨⟩
    decide
  · simpa using Nat.lt_succ_of_le hless
  · exact hnext

end

end Fragments.Yaml
