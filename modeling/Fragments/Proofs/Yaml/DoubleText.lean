import Fragments.Proofs.Yaml.QuotedText

namespace Fragments.Yaml

open Cursor Scan

theorem digitIn?_upper :
    ∀ digit < 16, Number.digitIn? 16 (Nat.digitChar digit).toUpper =
      some digit := by
  decide +kernel

theorem ofDigits_append (digits : List Nat) (last : Nat) :
    Number.ofDigits 16 (digits ++ [last]) = Number.ofDigits 16 digits *
    16 + last := by
  simp [Number.ofDigits]

theorem ofDigits_zeros (count : Nat) (digits : List Nat) :
    Number.ofDigits 16 (List.replicate count 0 ++ digits) =
      Number.ofDigits 16 digits := by
  induction count with
  | zero => rfl
  | succ count ih =>
      rw [List.replicate_succ, List.cons_append]
      exact ih

theorem mapM_digitIn?_toDigits (n : Nat) :
    ∃ digits, ((Nat.toDigits 16 n).map fun c => c.toUpper).mapM
      (Number.digitIn? 16) = some digits ∧
      Number.ofDigits 16 digits = n ∧
        digits.length = (Nat.toDigits 16 n).length := by
  induction n using Nat.strongRecOn with
  | ind n ih =>
      rw [Nat.toDigits_eq_if (by decide)]
      split
      · next hsmall =>
          exact ⟨[n], by
            simp [digitIn?_upper n hsmall], by simp [Number.ofDigits], rfl⟩
      · next hlarge =>
          obtain ⟨digits, hdigits, hvalue, hlength⟩ := ih (n / 16) (by omega)
          have hlast := digitIn?_upper (n % 16) (Nat.mod_lt n (by decide))
          refine ⟨digits ++ [n % 16], by
            simp [List.mapM_append, hdigits, hlast], ?_, ?_⟩
          · rw [ofDigits_append, hvalue]
            omega
          · simp [hlength]

theorem mapM_digitIn?_upperHex {width n : Nat} (hwidth : 0 < width)
    (hn : n < 16 ^ width) :
    ∃ digits, (upperHex width n).mapM (Number.digitIn? 16) = some digits ∧
      Number.ofDigits 16 digits = n ∧ digits.length = width ∧
        (upperHex width n).length = width := by
  obtain ⟨digits, hdigits, hvalue, hlength⟩ := mapM_digitIn?_toDigits n
  have hfits : (Nat.toDigits 16 n).length ≤ width :=
    (Nat.length_toDigits_le_iff (by decide) hwidth).mpr hn
  have hzeros (count : Nat) :
      (List.replicate count '0').mapM (Number.digitIn? 16) =
      some (List.replicate count 0) := by
    induction count with
    | zero => rfl
    | succ count ih =>
        rw [List.replicate_succ, List.mapM_cons, ih]
        rfl
  have hupper : upperHex width n =
      List.replicate (width - (Nat.toDigits 16 n).length) '0' ++
      (Nat.toDigits 16 n).map fun c => c.toUpper := by
    simp [upperHex, Text.hex]
  refine ⟨List.replicate (width - (Nat.toDigits 16 n).length) 0 ++ digits, ?_,
    ?_, ?_, ?_⟩
  · simp [hupper, List.mapM_append, hzeros, hdigits]
  · rw [ofDigits_zeros, hvalue]
  · simp [hlength]
    omega
  · simp [hupper]
    omega

/-- A character that stands on its line and takes a column. -/
def Inline (c : Char) : Prop := Tame c ∧ isBreak c = false

instance (c : Char) : Decidable (Inline c) :=
  inferInstanceAs (Decidable (_ ∧ _))

theorem inline_of_digitIn? {c : Char} (hdigit : Number.digitIn? 16 c ≠ none) :
    Inline c := by
  have hcode {code : Nat}
      (hnone : Number.digitIn? 16 (Char.ofNat code) = none) :
      c.toNat ≠ code := by
    rintro rfl
    rw [Char.ofNat_toNat] at hnone
    exact hdigit hnone
  have hreturn : c ≠ '\r' := by
    rintro rfl
    exact hdigit (by decide)
  have hfeed : c ≠ '\n' := by
    rintro rfl
    exact hdigit (by decide)
  have hbreak : isBreak c = false := by
    simp only [isBreak, Bool.or_eq_false_iff, beq_eq_false_iff_ne]
    exact ⟨⟨⟨⟨hfeed, hreturn⟩, hcode (by decide)⟩, hcode (by decide)⟩,
      hcode (by decide)⟩
  exact ⟨⟨hreturn, hcode (by decide)⟩, hbreak⟩

theorem ne_none_of_mem_mapM {f : Char → Option Nat} {chars : List Char}
    {found : List Nat} (hfound : chars.mapM f = some found) :
    ∀ c ∈ chars, f c ≠ none := by
  induction chars generalizing found with
  | nil => simp
  | cons d more ih =>
      rw [List.mapM_cons] at hfound
      cases hd : f d with
      | none => simp [hd] at hfound
      | some value =>
          cases hmore : more.mapM f with
          | none => simp [hd, hmore] at hfound
          | some others =>
              rintro c (_ | hc)
              · simp [hd]
              · exact ih hmore c ‹_›

theorem inline_of_upperHex {width n : Nat} (hwidth : 0 < width)
    (hn : n < 16 ^ width) :
    ∀ c ∈ upperHex width n, Inline c := by
  obtain ⟨digits, hdigits, -⟩ := mapM_digitIn?_upperHex hwidth hn
  exact fun c hc => inline_of_digitIn? (ne_none_of_mem_mapM hdigits c hc)

theorem toNat_lt (c : Char) : c.toNat < 0x110000 := by
  rcases c.valid with hlow | hhigh
  · exact Nat.lt_trans hlow (by decide)
  · exact hhigh.2

variable {out rest : List Char}

theorem scanCode_upperHex {width : Nat} {c : Char} (hwidth : 0 < width)
    (hc : c.toNat < 16 ^ width) :
    scanCode width (behind out (upperHex width c.toNat ++ rest)) =
      .ok (c, behind ((upperHex width c.toNat).reverse ++ out) rest) := by
  obtain ⟨digits, hdigits, hvalue, hlength, hwritten⟩ :=
    mapM_digitIn?_upperHex hwidth hc
  have htake : (upperHex width c.toNat ++ rest).take width =
      upperHex width c.toNat :=
    List.take_left' hwritten
  have hcode : charOfCode c.toNat
      (behind out (upperHex width c.toNat ++ rest)) =
      .ok (c, behind out (upperHex width c.toNat ++ rest)) := by
    rw [charOfCode, if_pos (show c.toNat.isValidChar from c.valid),
      Char.ofNat_toNat]
    rfl
  have hskip : Scan.skip width (behind out (upperHex width c.toNat ++ rest)) =
      .ok ((), behind ((upperHex width c.toNat).reverse ++ out) rest) := by
    have hall : Scan.skip (upperHex width c.toNat).length
        (behind out (upperHex width c.toNat ++ rest)) = _ :=
      Scan.skip_behind fun d hd => (inline_of_upperHex hwidth hc d hd).1
    rwa [hwritten] at hall
  simp only [scanCode, behind_rest, htake, hdigits, hlength, if_true, hvalue]
  rw [bind_of hcode, bind_of hskip]
  rfl

theorem escapeNames_read : ∀ name ∈ escapeNames,
    escapeLetters.lookup name.2 = some name.1 ∧ Inline name.2 := by
  decide

theorem escaped_cases (c : Char) :
    (∃ letter, escaped c = ['\\', letter] ∧
      escapeLetters.lookup letter = some c.toNat ∧ Inline letter) ∨
    ∃ mark width, escaped c = '\\' :: mark :: upperHex width c.toNat ∧
      escapeLetters.lookup mark = none ∧
        escapeLengths.lookup mark = some width ∧ Inline mark ∧
      0 < width ∧ c.toNat < 16 ^ width := by
  unfold escaped
  split
  · next letter hletter =>
      obtain ⟨before, after, hmem, -⟩ := List.lookup_eq_some_iff.mp hletter
      have hread := escapeNames_read (c.toNat, letter) (by simp [hmem])
      exact .inl ⟨letter, rfl, hread⟩
  · split
    · next hsmall =>
        exact .inr ⟨'x', 2, rfl, by
          decide, by decide, by decide, by decide, by omega⟩
    split
    · next hsmall =>
        exact .inr ⟨'u', 4, rfl, by
          decide, by decide, by decide, by decide, by omega⟩
    · have hvalid := toNat_lt c
      exact .inr ⟨'U', 8, rfl, by
        decide, by decide, by decide, by decide, by omega⟩

theorem inline_of_escaped (c : Char) : ∀ d ∈ escaped c, Inline d := by
  rcases escaped_cases c with ⟨letter, hwritten, -, hletter⟩ |
    ⟨mark, width, hwritten, -, -, hmark, hwidth, hcode⟩
  · rw [hwritten]
    simpa using ⟨by decide, hletter⟩
  · rw [hwritten]
    simpa using ⟨by decide, hmark, inline_of_upperHex hwidth hcode⟩

theorem scanEscape_escaped (c : Char) :
    ∃ more, escaped c = '\\' :: more ∧ more ≠ [] ∧
      scanEscape (behind out ('\\' :: (more ++ rest))) =
        .ok ([c], behind (more.reverse ++ '\\' :: out) rest) := by
  rcases escaped_cases c with ⟨letter, hwritten, hread, hletter⟩ |
    ⟨mark, width, hwritten, hnone, hlength, hmark, hwidth, hcode⟩
  · refine ⟨[letter], hwritten, by simp, ?_⟩
    rw [scanEscape, bind_of (peek_behind 1)]
    simp only [List.singleton_append, List.drop_succ_cons, List.drop_zero,
      List.headD_cons, hread]
    rw [bind_of (skip_two (by decide) hletter.1), Char.ofNat_toNat]
    rfl
  · refine ⟨mark :: upperHex width c.toNat, hwritten, by simp, ?_⟩
    rw [scanEscape, bind_of (peek_behind 1)]
    simp only [List.cons_append, List.drop_succ_cons, List.drop_zero,
      List.headD_cons, hnone, hlength]
    rw [bind_of (skip_two (by decide) hmark.1),
      bind_of (scanCode_upperHex hwidth hcode)]
    simp
    rfl

/-- Writes the characters between double quotes; `bare` says that an escape or
nothing stands before them. -/
def writeDoubleChars (fold : Bool) (indent : Nat) (pen : Pen)
    (bare first : Bool) :
    List Char → Pen
  | [] => pen
  | c :: rest =>
      let inside := fold && !first && !rest.isEmpty
      if needsEscape c then
        let after := pen.write (escaped c)
        let placed :=
          if inside && lineWidth + 1 < after.column then
            breakDouble indent rest.head? after
          else after
        writeDoubleChars fold indent placed true false rest
      else if inside && (c == ' ' || bare) && lineWidth < pen.column then
        writeDoubleChars fold indent
          ((breakDouble indent (some c) pen).write [c]) false false rest
      else writeDoubleChars fold indent (pen.write [c]) false false rest

theorem Pen.write_write (pen : Pen) (chars more : List Char) :
    (pen.write chars).write more = pen.write (chars ++ more) := by
  simp [Pen.write, Nat.add_assoc]

theorem Pen.write_nil (pen : Pen) : pen.write [] = pen := rfl

theorem writeDoubleFrom_eq (fold : Bool) (indent : Nat) (chars : List Char) :
    ∀ (pen : Pen) (pending : List Char) (first : Bool),
      writeDoubleFrom fold indent pen pending first chars =
        writeDoubleChars fold indent (pen.write pending.reverse) pending.isEmpty
          first chars := by
  induction chars with
  | nil => exact fun _ _ _ => rfl
  | cons c rest ih =>
      intro pen pending first
      have hcolumn : (pen.write pending.reverse).column =
          pen.column + pending.length := by
        simp [Pen.write]
      rw [writeDoubleFrom, writeDoubleChars, hcolumn]
      simp only [ih]
      split
      · rfl
      split
      · simp
      · rw [Pen.write_write]
        simp

/-- What a text between double quotes is read as. Where lines are broken deep
inside, a backslash stands behind an escape that is followed by a blank, with a
blank behind it. -/
def heardDoubleFrom (strays first : Bool) : List Char → List Char
  | [] => []
  | c :: rest =>
      if strays && !first && needsEscape c && rest.head? == some ' ' &&
        2 ≤ rest.length then
          c :: '\\' :: ' ' :: heardDoubleFrom strays false rest
      else c :: heardDoubleFrom strays false rest

theorem heardDoubleFrom_false (first : Bool) (chars : List Char) :
    heardDoubleFrom false first chars = chars := by
  induction chars generalizing first with
  | nil => rfl
  | cons c rest ih =>
      rw [heardDoubleFrom, if_neg (by simp), ih]

/-- A text that starts with nothing but blanks before what can be seen. -/
def Stopped (rest : List Char) : Prop :=
  ∃ count more, rest = List.replicate count ' ' ++ more ∧ Inked more

theorem Inked.stopped (hrest : Inked rest) : Stopped rest :=
  ⟨0, rest, rfl, hrest⟩

theorem Stopped.cons (hrest : Stopped rest) : Stopped (' ' :: rest) := by
  obtain ⟨count, more, rfl, hmore⟩ := hrest
  exact ⟨count + 1, more, rfl, hmore⟩

theorem inked_backslash (rest : List Char) : Inked ('\\' :: rest) :=
  ⟨_, _, rfl, by decide, by decide⟩

theorem needsEscape_eq_false {c : Char} (hplain : needsEscape c = false) :
    c ≠ '"' ∧ c ≠ '\\' ∧ c.toNat ≠ 0x85 ∧ c.toNat ≠ 0x2028 ∧ c.toNat ≠ 0x2029 ∧
      c.toNat ≠ 0xFEFF ∧ 0x20 ≤ c.toNat := by
  simp only [needsEscape, Bool.or_eq_false_iff, Bool.not_eq_false',
    Bool.or_eq_true, Bool.and_eq_true, beq_eq_false_iff_ne, decide_eq_true_eq]
    at hplain
  obtain ⟨⟨⟨⟨⟨⟨hquote, hback⟩, hnext⟩, hline⟩, hparagraph⟩, hmark⟩, hrange⟩ :=
    hplain
  exact ⟨hquote, hback, hnext, hline, hparagraph, hmark, by omega⟩

theorem inline_of_needsEscape {c : Char} (hplain : needsEscape c = false) :
    Inline c := by
  obtain ⟨-, -, hnext, hline, hparagraph, hmark, hcode⟩ :=
    needsEscape_eq_false hplain
  have hcontrol {d : Char} (hd : d.toNat < 0x20) : c ≠ d := by
    rintro rfl
    omega
  refine ⟨⟨hcontrol (by decide), hmark⟩, ?_⟩
  simp only [isBreak, Bool.or_eq_false_iff, beq_eq_false_iff_ne]
  exact ⟨⟨⟨⟨hcontrol (by decide), hcontrol (by decide)⟩, hnext⟩, hline⟩,
    hparagraph⟩

theorem inked_of_needsEscape {c : Char} (hplain : needsEscape c = false)
    (hblank : c ≠ ' ') (rest : List Char) : Inked (c :: rest) := by
  obtain ⟨-, -, -, -, -, -, hcode⟩ := needsEscape_eq_false hplain
  have hcontrol {d : Char} (hd : d.toNat < 0x20) : c ≠ d := by
    rintro rfl
    omega
  refine ⟨c, rest, rfl, ?_, ?_⟩
  · rw [isQuotedBlank, Bool.or_eq_false_iff, beq_eq_false_iff_ne,
      beq_eq_false_iff_ne]
    exact ⟨hblank, hcontrol (by decide)⟩
  · rw [endsLine, Bool.or_eq_false_iff, beq_eq_false_iff_ne]
    exact ⟨hcontrol (by decide), (inline_of_needsEscape hplain).2⟩

theorem Body.raw {c : Char} {text : List Char} {last : Cursor}
    (hplain : needsEscape c = false) (hblank : c ≠ ' ')
    (hbody : Body true (behind (c :: out) rest) text last) :
    Body true (behind out (c :: rest)) ([c] ++ text) last := by
  obtain ⟨hdouble, hback, -⟩ := needsEscape_eq_false hplain
  by_cases hquote : c = '\''
  · exact hbody.other (.inl ⟨hquote, rfl⟩)
  · refine hbody.plain ?_ (inline_of_needsEscape hplain).1
    obtain ⟨_, _, ⟨⟩, hinked, hends⟩ := inked_of_needsEscape hplain hblank []
    rw [isQuotedBlank, Bool.or_eq_false_iff] at hinked
    simp [isQuotedPlain, hquote, hdouble, hback, hinked, hends]

theorem scanEscape_break {indent : Nat} (hindent : 0 < indent)
    (hrest : Inked rest) :
    scanEscape
      (behind out ('\\' :: '\n' :: (List.replicate indent ' ' ++ rest))) =
      .ok ([], behind (Pen.line indent ('\\' :: out)) rest) := by
  have hbreaks : scanQuotedBreaks (behind ('\n' :: '\\' :: out)
      (List.replicate indent ' ' ++ rest)).rest.length
      (behind ('\n' :: '\\' :: out)
        ([] ++ (List.replicate indent ' ' ++ rest))) = _ :=
    scanQuotedBreaks_behind (by simp) hindent hrest (by simp; omega) _
  have hletter : escapeLetters.lookup '\n' = none := by decide
  have hlength : escapeLengths.lookup '\n' = none := by decide
  rw [scanEscape, bind_of (peek_behind 1)]
  simp only [List.drop_succ_cons, List.drop_zero, List.headD_cons,
    hletter, hlength]
  rw [if_pos (by decide), bind_of (skip_one (by decide)),
    bind_of (lineBreak_behind rfl), bind_of (remaining_apply _)]
  exact hbreaks

theorem scanEscape_blank :
    scanEscape (behind out ('\\' :: ' ' :: rest)) =
      .ok ([' '], behind (' ' :: '\\' :: out) rest) := by
  have hletter : escapeLetters.lookup ' ' = some 0x20 := by decide
  rw [scanEscape, bind_of (peek_behind 1)]
  simp only [List.drop_succ_cons, List.drop_zero, List.headD_cons, hletter]
  exact (bind_of (skip_two (by decide) (by decide))).trans rfl

theorem inked_escaped (c : Char) (rest : List Char) :
    Inked (escaped c ++ rest) := by
  rcases escaped_cases c with
    ⟨letter, hwritten, -⟩ | ⟨mark, width, hwritten, -⟩ <;> rw [hwritten] <;>
      exact inked_backslash _

/-- How characters are written and read back between double quotes. -/
structure WrittenDouble (out chunk heard : List Char) : Prop where
  stopped : ∀ rest, Inked rest → Stopped (chunk ++ rest)
  reads : ∀ {rest text : List Char} {last : Cursor}, Inked rest →
    Body true (behind (chunk.reverse ++ out) rest) text last →
      Body true (behind out (chunk ++ rest)) (heard ++ text) last

namespace WrittenDouble

variable {chunk heard : List Char} {c : Char}

theorem nil : WrittenDouble out [] [] :=
  ⟨fun _ hrest => hrest.stopped, fun _ hbody => hbody⟩

theorem escape (c : Char)
    (hmore : WrittenDouble ((escaped c).reverse ++ out) chunk heard) :
    WrittenDouble out (escaped c ++ chunk) (c :: heard) := by
  refine ⟨fun rest _ => ?_, fun {rest text last} hrest hbody => ?_⟩
  · rw [List.append_assoc]
    exact (inked_escaped c _).stopped
  · obtain ⟨more, hwritten, -, hread⟩ := scanEscape_escaped c
    rw [hwritten] at hmore ⊢
    have hlater := hmore.reads hrest (by simpa [hwritten] using hbody)
    rw [List.reverse_cons, List.append_assoc, List.singleton_append] at hlater
    have hall := Body.escape hread (by simp) hlater
    rwa [List.append_assoc, List.cons_append]

theorem raw (hplain : needsEscape c = false) (hblank : c ≠ ' ')
    (hmore : WrittenDouble (c :: out) chunk heard) :
    WrittenDouble out (c :: chunk) (c :: heard) :=
  ⟨fun _ _ => (inked_of_needsEscape hplain hblank _).stopped,
    fun hrest hbody =>
      Body.raw hplain hblank (hmore.reads hrest (by simpa using hbody))⟩

theorem blank (hmore : WrittenDouble (' ' :: out) chunk heard) :
    WrittenDouble out (' ' :: chunk) (' ' :: heard) :=
  ⟨fun rest hrest => (hmore.stopped rest hrest).cons,
    fun hrest hbody =>
      Body.blank (hmore.stopped _ hrest)
        (hmore.reads hrest (by simpa using hbody))⟩

theorem kept (hmore : WrittenDouble (' ' :: '\\' :: out) chunk heard) :
    WrittenDouble out ('\\' :: ' ' :: chunk) (' ' :: heard) :=
  ⟨fun _ _ => (inked_backslash _).stopped,
    fun {_ text _} hrest hbody => by
      have hlater := hmore.reads hrest (by simpa using hbody)
      have hall := Body.escape scanEscape_blank (by simp) hlater
      exact hall⟩

theorem lineBreak {indent : Nat} (hindent : 0 < indent)
    (hinked : ∀ rest, Inked rest → Inked (chunk ++ rest))
    (hmore : WrittenDouble (Pen.line indent ('\\' :: out)) chunk heard) :
    WrittenDouble out ('\\' :: '\n' :: (List.replicate indent ' ' ++ chunk))
      heard := by
  refine ⟨fun _ _ => (inked_backslash _).stopped,
    fun {rest text last} hrest hbody => ?_⟩
  have hlater := hmore.reads hrest (by simpa [Pen.line] using hbody)
  have hall := Body.escape (scanEscape_break hindent (hinked rest hrest))
    (by simp; omega) hlater
  simpa only [List.cons_append, List.append_assoc, List.nil_append] using hall

theorem stray {indent : Nat} (hindent : 0 < indent)
    (hmore : WrittenDouble
      (' ' :: '\\' :: Pen.line indent ('\\' :: '\\' :: out)) chunk heard) :
    WrittenDouble out
      ('\\' :: '\\' :: '\n' ::
        (List.replicate indent ' ' ++ '\\' :: ' ' :: chunk))
      ('\\' :: ' ' :: ' ' :: heard) := by
  refine ⟨fun _ _ => (inked_backslash _).stopped,
    fun {rest text last} hrest hbody => ?_⟩
  have hlater := hmore.reads hrest (by simpa [Pen.line] using hbody)
  have hkept := Body.escape scanEscape_blank (by simp) hlater
  have hbroken : Body true (behind ('\\' :: '\\' :: out)
      (['\n'] ++ (List.replicate indent ' ' ++ '\\' :: ' ' :: (chunk ++ rest))))
      ([' '] ++ ([' '] ++ (heard ++ text))) last :=
    Body.breaks rfl (by simp) hindent (inked_backslash _) hkept
  have hread : scanEscape (behind out ('\\' :: '\\' :: '\n' ::
      (List.replicate indent ' ' ++ '\\' :: ' ' :: (chunk ++ rest)))) =
        .ok (['\\'], behind ('\\' :: '\\' :: out) ('\n' ::
          (List.replicate indent ' ' ++ '\\' :: ' ' :: (chunk ++ rest)))) := by
    obtain ⟨more, hwritten, -, hread⟩ := scanEscape_escaped '\\'
    obtain rfl : ['\\'] = more := (List.cons.inj hwritten).2
    exact hread
  have hall := Body.escape hread (by simp) hbroken
  simpa using hall

end WrittenDouble

/-- The front of a new line, given the character that stands behind it. -/
def keptFront (next : Option Char) : List Char := if next == some ' ' then
    ['\\'] else []

theorem breakDouble_behind {indent : Nat} (next : Option Char)
    (out : List Char) :
    breakDouble indent next (.behind out false false) =
      .behind (keptFront next ++ Pen.line indent ('\\' :: out)) false
        false := by
  rw [breakDouble, Pen.write_behind (by decide), Pen.breakTo_line, keptFront]
  split
  · rw [Pen.write_behind (by decide)]
    rfl
  · rfl

section

variable {c : Char} (fold : Bool) (indent : Nat) (bare first : Bool)
  (rest out : List Char)

theorem writeDoubleChars_plain (hplain : needsEscape c = false) :
    writeDoubleChars fold indent (.behind out false false) bare first
      (c :: rest) =
      writeDoubleChars fold indent
        (.behind
          (if (fold && !first && !rest.isEmpty && (c == ' ' || bare)) &&
            lineWidth < columnOf out then
            c :: (keptFront c ++ Pen.line indent ('\\' :: out)) else c :: out)
            false false)
        false false rest := by
  have hwrite (out : List Char) :
      (Pen.behind out false false).write [c] = .behind (c :: out) false false :=
    Pen.write_behind (by simpa using (inline_of_needsEscape hplain).2)
  rw [writeDoubleChars, if_neg (by simp [hplain]), breakDouble_behind,
    hwrite, hwrite]
  split
  · next hbreak => rw [if_pos (by exact hbreak)]
  · next hstays => rw [if_neg (by exact hstays)]

theorem writeDoubleChars_escape (hescape : needsEscape c = true) :
    writeDoubleChars fold indent (.behind out false false) bare first
      (c :: rest) =
      writeDoubleChars fold indent
        (.behind
          (if (fold && !first && !rest.isEmpty) &&
              lineWidth + 1 < columnOf ((escaped c).reverse ++ out) then
            keptFront rest.head? ++
              Pen.line indent ('\\' :: ((escaped c).reverse ++ out))
          else (escaped c).reverse ++ out) false false)
        true false rest := by
  have hwrite : (Pen.behind out false false).write (escaped c) =
      .behind ((escaped c).reverse ++ out) false false :=
    Pen.write_behind fun d hd => (inline_of_escaped c d hd).2
  rw [writeDoubleChars, if_pos hescape, hwrite]
  simp only [breakDouble_behind]
  split
  · next hbreak => rw [if_pos (by exact hbreak)]
  · next hstays => rw [if_neg (by exact hstays)]

end

/-- Characters are written between double quotes as they are read back. -/
def Doubles (fold : Bool) (indent : Nat) (bare first : Bool)
    (chars out : List Char) : Prop :=
  ∃ chunk, writeDoubleChars fold indent (.behind out false false) bare
    first chars =
      .behind (chunk.reverse ++ out) false false ∧
    WrittenDouble out chunk
      (heardDoubleFrom (fold && 80 ≤ indent) first chars) ∧
    ((∀ c ∈ chars.head?, c ≠ ' ') → ∀ rest, Inked rest → Inked (chunk ++ rest))

namespace Doubles

variable {fold bare first : Bool} {indent : Nat} {c : Char}

theorem nil : Doubles fold indent bare first [] out :=
  ⟨[], rfl, .nil, fun _ _ hrest => hrest⟩

theorem plain (hindent : 0 < indent) (hplain : needsEscape c = false)
    (hplaced : fold = true → indent ≤ columnOf out)
    (hrest : ∀ out, (fold = true → indent ≤ columnOf out) →
      Doubles fold indent false false rest out) :
      Doubles fold indent bare first (c :: rest) out := by
  have hinline := inline_of_needsEscape hplain
  have hheard : heardDoubleFrom (fold && 80 ≤ indent) first (c :: rest) =
      c :: heardDoubleFrom (fold && 80 ≤ indent) false rest := by
    rw [heardDoubleFrom, if_neg (by simp [hplain])]
  unfold Doubles
  rw [hheard, writeDoubleChars_plain _ _ _ _ _ _ hplain]
  split
  · -- the line is broken in front of the character
    by_cases hblank : c = ' '
    · subst hblank
      obtain ⟨chunk, hchunk, hwritten, -⟩ :=
        hrest (' ' :: '\\' :: Pen.line indent ('\\' :: out)) fun _ => by
          rw [columnOf_cons rfl, columnOf_cons rfl, Pen.columnOf_line]; omega
      refine ⟨'\\' :: '\n' ::
        (List.replicate indent ' ' ++ '\\' :: ' ' :: chunk), ?_,
        .lineBreak hindent (fun _ _ => inked_backslash _) (.kept hwritten),
        fun hfirst => absurd rfl (hfirst ' ' rfl)⟩
      simpa [keptFront, Pen.line] using hchunk
    · obtain ⟨chunk, hchunk, hwritten, -⟩ :=
        hrest (c :: Pen.line indent ('\\' :: out)) fun _ => by
          rw [columnOf_cons hinline.2, Pen.columnOf_line]; omega
      refine ⟨'\\' :: '\n' :: (List.replicate indent ' ' ++ c :: chunk), ?_,
        .lineBreak hindent (fun _ _ => inked_of_needsEscape hplain hblank _)
          (.raw hplain hblank hwritten), fun _ _ _ => inked_backslash _⟩
      simpa [keptFront, hblank, Pen.line] using hchunk
  · obtain ⟨chunk, hchunk, hwritten, -⟩ := hrest (c :: out)
      fun hfold => by
        rw [columnOf_cons hinline.2]; exact Nat.le_succ_of_le (hplaced hfold)
    refine ⟨c :: chunk, by simpa using hchunk, ?_, fun hfirst rest _ => ?_⟩
    · by_cases hblank : c = ' '
      · subst hblank
        exact .blank hwritten
      · exact .raw hplain hblank hwritten
    · exact inked_of_needsEscape hplain (hfirst c rfl) _

theorem columnOf_escaped (c : Char) (out : List Char) :
    columnOf out + 2 ≤ columnOf ((escaped c).reverse ++ out) := by
  have hlength : 2 ≤ (escaped c).length := by
    rcases escaped_cases c with
      ⟨letter, hwritten, -⟩ | ⟨mark, width, hwritten, -⟩ <;> simp [hwritten]
  rw [columnOf_append fun d hd =>
    (inline_of_escaped c d (List.mem_reverse.mp hd)).2, List.length_reverse]
  omega

theorem heard_escape (hplaced : fold = true → indent ≤ columnOf out)
    (hnext : rest.head? ≠ some ' ' ∨ ¬((fold && !first && !rest.isEmpty) &&
      lineWidth + 1 < columnOf ((escaped c).reverse ++ out)) = true) :
    heardDoubleFrom (fold && 80 ≤ indent) first (c :: rest) =
      c :: heardDoubleFrom (fold && 80 ≤ indent) false rest := by
  rw [heardDoubleFrom, if_neg fun hstray => ?_]
  simp only [Bool.and_eq_true, decide_eq_true_eq, beq_iff_eq] at hstray
  obtain ⟨⟨⟨⟨⟨hfold, hdeep⟩, hlater⟩, -⟩, hhead⟩, -⟩ := hstray
  refine hnext.elim (fun hother => hother hhead) fun hstays => hstays ?_
  have hmore : rest.isEmpty = false := by
    cases rest with
    | nil => cases hhead
    | cons => rfl
  have hcolumn := columnOf_escaped c out
  have hout := hplaced hfold
  have hwide : lineWidth + 1 < columnOf ((escaped c).reverse ++ out) := by
    unfold lineWidth
    omega
  simp [hfold, hlater, hmore, hwide]

theorem escape (hindent : 0 < indent) (hescape : needsEscape c = true)
    (hplaced : fold = true → indent ≤ columnOf out)
    (hnext : rest.head? ≠ some ' ' ∨ ¬((fold && !first && !rest.isEmpty) &&
      lineWidth + 1 < columnOf ((escaped c).reverse ++ out)) = true)
    (hrest : ∀ out, (fold = true → indent ≤ columnOf out) →
      Doubles fold indent true false rest out) :
      Doubles fold indent bare first (c :: rest) out := by
  have hcolumn := columnOf_escaped c out
  unfold Doubles
  rw [heard_escape hplaced hnext, writeDoubleChars_escape _ _ _ _ _ _ hescape]
  split
  · next hbreak =>
      have hhead := hnext.resolve_right (not_not_intro hbreak)
      obtain ⟨chunk, hchunk, hwritten, hinked⟩ :=
        hrest (Pen.line indent ('\\' :: ((escaped c).reverse ++ out)))
          fun _ => by
            rw [Pen.columnOf_line]
      refine ⟨escaped c ++ '\\' :: '\n' :: (List.replicate indent ' ' ++ chunk),
        ?_, .escape c (.lineBreak hindent (hinked ?_) hwritten),
        fun _ rest _ => ?_⟩
      · simpa [keptFront, hhead, Pen.line] using hchunk
      · rintro d hd rfl
        exact hhead hd
      · rw [List.append_assoc]
        exact inked_escaped c _
  · obtain ⟨chunk, hchunk, hwritten, -⟩ := hrest ((escaped c).reverse ++ out)
      fun hfold => by
        have hout := hplaced hfold
        omega
    refine ⟨escaped c ++ chunk, by
      simpa using hchunk, .escape c hwritten, fun _ rest _ => ?_⟩
    rw [List.append_assoc]
    exact inked_escaped c _

theorem escape_blank (hindent : 0 < indent) (hescape : needsEscape c = true)
    (hbreak : ((fold && !first) && lineWidth + 1 <
      columnOf ((escaped c).reverse ++ out)) = true)
    (hrest : ∀ out, (fold = true → indent ≤ columnOf out) →
      Doubles fold indent false false rest out) :
    Doubles fold indent bare first (c :: ' ' :: rest) out := by
  simp only [Bool.and_eq_true, decide_eq_true_eq] at hbreak
  obtain ⟨⟨hfold, hlater⟩, hwide⟩ := hbreak
  have hcolumn (out : List Char) : columnOf ('\\' :: Pen.line indent out) =
      indent + 1 := by
    rw [columnOf_cons rfl, Pen.columnOf_line]
  have hblank : heardDoubleFrom (fold && 80 ≤ indent) false (' ' :: rest) =
      ' ' :: heardDoubleFrom (fold && 80 ≤ indent) false rest := by
    have hplain : needsEscape ' ' = false := by decide
    rw [heardDoubleFrom, if_neg (by simp [hplain])]
  unfold Doubles
  rw [writeDoubleChars_escape _ _ _ _ _ _ hescape,
    if_pos (by simp [hfold, hlater, hwide]),
    writeDoubleChars_plain _ _ _ _ _ _ (by decide), heardDoubleFrom, hblank]
  have hfront : keptFront (' ' :: rest).head? ++
      Pen.line indent ('\\' :: ((escaped c).reverse ++ out)) =
        '\\' :: Pen.line indent ('\\' :: ((escaped c).reverse ++ out)) := rfl
  rw [hfront]
  split
  · next hagain =>
      simp only [Bool.and_eq_true, decide_eq_true_eq, hcolumn, lineWidth]
        at hagain
      have hlong : 2 ≤ (' ' :: rest).length := by
        cases rest with
        | nil => simp at hagain
        | cons => simp
      have hdeep : 80 ≤ indent := by omega
      obtain ⟨chunk, hchunk, hwritten, -⟩ :=
        hrest (' ' :: '\\' :: Pen.line indent
          ('\\' :: '\\' :: Pen.line indent
            ('\\' :: ((escaped c).reverse ++ out))))
        fun _ => by rw [columnOf_cons rfl, hcolumn]; omega
      refine ⟨escaped c ++ '\\' :: '\n' ::
        (List.replicate indent ' ' ++ '\\' :: '\\' :: '\n' ::
          (List.replicate indent ' ' ++ '\\' :: ' ' :: chunk)), ?_, ?_,
          fun _ rest _ => ?_⟩
      · simpa [keptFront, Pen.line] using hchunk
      · rw [if_pos (by
          simpa [hfold, hdeep, hescape]
            using ⟨by simpa using hlater, by simpa using hlong⟩)]
        exact .escape c
          (.lineBreak hindent (fun _ _ => inked_backslash _)
            (.stray hindent hwritten))
      · rw [List.append_assoc]
        exact inked_escaped c _
  · next hstays =>
      simp only [Bool.and_eq_true, decide_eq_true_eq, hcolumn, lineWidth]
        at hstays
      obtain ⟨chunk, hchunk, hwritten, -⟩ := hrest
        (' ' :: '\\' :: Pen.line indent ('\\' :: ((escaped c).reverse ++ out)))
        fun _ => by rw [columnOf_cons rfl, hcolumn]; omega
      refine ⟨escaped c ++ '\\' :: '\n' ::
        (List.replicate indent ' ' ++ '\\' :: ' ' :: chunk), ?_, ?_,
        fun _ rest _ => ?_⟩
      · simpa [Pen.line] using hchunk
      · rw [if_neg fun hstray => hstays ?_]
        · exact .escape c
            (.lineBreak hindent (fun _ _ => inked_backslash _) (.kept hwritten))
        · simp only [Bool.and_eq_true, decide_eq_true_eq] at hstray
          have hmore : rest.isEmpty = false := by
            cases rest with
            | nil => simp at hstray
            | cons => rfl
          exact ⟨by simp [hfold, hmore], by omega⟩
      · rw [List.append_assoc]
        exact inked_escaped c _

end Doubles

theorem doubles (fold : Bool) {indent : Nat} (hindent : 0 < indent) :
    ∀ (chars : List Char) (bare first : Bool) (out : List Char),
      (fold = true → indent ≤ columnOf out) →
        Doubles fold indent bare first chars out
  | [], _, _, _, _ => .nil
  | c :: rest, bare, first, out, hplaced => by
      cases hescape : needsEscape c with
      | false =>
          exact .plain hindent hescape hplaced
            (doubles fold hindent rest false false)
      | true =>
          by_cases hbreak : rest.head? = some ' ' ∧ (fold && !first &&
              lineWidth + 1 < columnOf ((escaped c).reverse ++ out)) = true
          · obtain ⟨hhead, hbreak⟩ := hbreak
            obtain ⟨others, rfl⟩ := List.head?_eq_some_iff.mp hhead
            exact .escape_blank hindent hescape hbreak
              (doubles fold hindent others false false)
          · refine .escape hindent hescape hplaced ?_
              (doubles fold hindent rest true false)
            rw [not_and_or] at hbreak
            refine hbreak.imp_right fun hstays hbreak => hstays ?_
            simp only [Bool.and_eq_true] at hbreak ⊢
            exact ⟨hbreak.1.1, hbreak.2⟩
termination_by chars => chars.length

/-- What a text between double quotes is read as, given the column of the lines
it is broken to. -/
def heardDouble (fold : Bool) (indent : Nat) (chars : List Char) : List Char :=
  heardDoubleFrom (fold && 80 ≤ indent) true chars

/-- A text between double quotes as it is written, and what it is read as. -/
theorem scanQuoted_double (fold : Bool) {indent : Nat} (hindent : 0 < indent)
    (chars : List Char) (out : List Char) (fresh : Bool)
    (hplaced : fold = true → indent ≤ columnOf out + 1) :
    ∃ body, writeDouble fold indent chars (.behind out true fresh) =
        .behind (('"' :: body ++ ['"']).reverse ++ out) false false ∧
      ∀ rest, scanQuoted true (behind out ('"' :: body ++ ['"'] ++ rest)) =
        .ok (String.ofList (heardDouble fold indent chars),
          behind (('"' :: body ++ ['"']).reverse ++ out) rest) := by
  obtain ⟨body, hbody, hwritten, -⟩ :=
    doubles fold hindent chars true true ('"' :: out) fun hfold => by
      rw [columnOf_cons rfl]; exact hplaced hfold
  refine ⟨body, ?_, fun rest => ?_⟩
  · rw [writeDouble, Pen.mark_behind (by decide), Bool.and_false, Bool.true_or,
      if_pos rfl, writeDoubleFrom_eq]
    rw [List.reverse_singleton, List.singleton_append, List.reverse_nil,
      Pen.write_nil, List.isEmpty_nil, hbody, Pen.mark_behind (by decide)]
    simp
  · have hclose : Inked ('"' :: rest) := ⟨_, _, rfl, by decide, by decide⟩
    have hread := hwritten.reads hclose Body.close_double
    rw [List.append_nil] at hread
    exact Body.scanQuoted (by decide) hread

end Fragments.Yaml
