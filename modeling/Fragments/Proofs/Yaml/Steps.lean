import Fragments.Proofs.Yaml.Walk
import Fragments.Proofs.Yaml.Pens
import Fragments.Yaml.Scanner

namespace Fragments.Yaml

open Cursor

namespace Scanner

/-- Goes on to the next token, without what is no longer a possible key. -/
def rests (scanner : Scanner) : Except Trouble Scanner := do
  let next ← skipToToken (scanner.cursor.rest.length + 1) scanner.skipOrderMark
  next.dropStale

/-- Cuts the text into tokens from the next token on. `kept` are the tokens if
that cannot be done. -/
def settle (kept : List Token) (fuel : Nat) (scanner : Scanner) :
    List Token × Option Trouble :=
  let next := scanner.unwind scanner.cursor.column
  if next.cursor.rest.isEmpty then
    match next.endBlocks with
    | .error trouble => (kept, some trouble)
    | .ok last => ((last.push .streamEnd).tokens.reverse, none)
  else
    match next.fetch with
    | .error trouble => (kept, some trouble)
    | .ok after => scanAll fuel after

theorem scanAll_of_rests {scanner next : Scanner}
    (hrests : scanner.rests = .ok next) (fuel : Nat) :
    scanAll (fuel + 1) scanner = settle scanner.settled fuel next := by
  unfold scanAll
  unfold rests at hrests
  cases hskip : skipToToken (scanner.cursor.rest.length + 1)
    scanner.skipOrderMark with
  | error trouble =>
      rw [hskip] at hrests
      cases hrests
  | ok skipped =>
      rw [hskip] at hrests
      have hdrop : skipped.dropStale = .ok next := hrests
      simp only [bind, Except.bind, hdrop]
      rfl

theorem scanAll_of_rests_error {scanner : Scanner} {trouble : Trouble}
    (hrests : scanner.rests = .error trouble) (fuel : Nat) :
    scanAll (fuel + 1) scanner = (scanner.settled, some trouble) := by
  unfold scanAll
  unfold rests at hrests
  cases hskip : skipToToken (scanner.cursor.rest.length + 1)
    scanner.skipOrderMark with
  | error other =>
      rw [hskip] at hrests
      cases hrests
      rfl
  | ok next =>
      rw [hskip] at hrests
      have hdrop : next.dropStale = .error trouble := hrests
      simp only [bind, Except.bind, hdrop]

/-- The scanner goes from one settled place to another, in at most as many steps
as it passes over characters. -/
def Leads (before after : Scanner) : Prop :=
  ∃ count, count + after.cursor.rest.length ≤ before.cursor.rest.length ∧
    ∀ fuel kept, ∃ left,
      settle kept (fuel + count) before = settle left fuel after

namespace Leads

variable {a b c : Scanner}

theorem trans (hab : Leads a b) (hbc : Leads b c) : Leads a c := by
  obtain ⟨m, hm, hab⟩ := hab
  obtain ⟨n, hn, hbc⟩ := hbc
  refine ⟨n + m, by omega, fun fuel kept => ?_⟩
  obtain ⟨middle, hab⟩ := hab (fuel + n) kept
  obtain ⟨left, hbc⟩ := hbc fuel middle
  exact ⟨left, by rw [← Nat.add_assoc, hab, hbc]⟩

theorem step {raw : Scanner} (hunwind : a.unwind a.cursor.column = a)
    (hless : b.cursor.rest.length < a.cursor.rest.length)
    (hfetch : a.fetch = .ok raw) (hrests : raw.rests = .ok b) : Leads a b := by
  refine ⟨1, by omega, fun fuel kept => ⟨raw.settled, ?_⟩⟩
  have hrest : a.cursor.rest.isEmpty = false := by
    cases hrest : a.cursor.rest with
    | nil => simp [hrest] at hless
    | cons => rfl
  rw [settle, hunwind]
  simp only [hrest, Bool.false_eq_true, if_false, hfetch]
  exact scanAll_of_rests hrests fuel

end Leads

/-- The scanner stops before the end of the text. -/
def Halts (before : Scanner) : Prop :=
  ∃ count, count ≤ before.cursor.rest.length ∧
    ∀ fuel kept, (settle kept (fuel + count) before).2 = some .malformed

theorem Leads.halts {a b : Scanner} (hab : Leads a b) (hb : Halts b) :
    Halts a := by
  obtain ⟨m, hm, hab⟩ := hab
  obtain ⟨n, hn, hb⟩ := hb
  refine ⟨n + m, by omega, fun fuel kept => ?_⟩
  obtain ⟨left, hab⟩ := hab (fuel + n) kept
  rw [← Nat.add_assoc, hab, hb]

namespace Halts

variable {a raw : Scanner}

theorem of_fetch (hunwind : a.unwind a.cursor.column = a)
    (hsome : a.cursor.rest.isEmpty = false)
    (hfetch : a.fetch = .error .malformed) : Halts a := by
  refine ⟨0, Nat.zero_le _, fun fuel kept => ?_⟩
  rw [settle, hunwind]
  simp only [hsome, Bool.false_eq_true, if_false, hfetch]

theorem of_rests (hunwind : a.unwind a.cursor.column = a)
    (hsome : a.cursor.rest.isEmpty = false) (hfetch : a.fetch = .ok raw)
    (hrests : raw.rests = .error .malformed) : Halts a := by
  have hlength : 1 ≤ a.cursor.rest.length := by
    rw [Nat.one_le_iff_ne_zero, ne_eq, List.length_eq_zero_iff]
    rintro hnil
    rw [hnil] at hsome
    cases hsome
  refine ⟨1, hlength, fun fuel kept => ?_⟩
  rw [settle, hunwind]
  simp only [hsome, Bool.false_eq_true, if_false, hfetch]
  rw [scanAll_of_rests_error hrests fuel]

end Halts

/-- Where all is well the scanner goes from one settled place to another;
otherwise it halts. -/
def Goes : Bool → Scanner → Scanner → Prop
  | true, before, after => Leads before after
  | false, before, _ => Halts before

namespace Goes

variable {first second : Bool} {a b c : Scanner}

theorem of_leads (hab : Leads a b) (hbc : Goes second b c) :
    Goes second a c := by
  cases second with
  | true => exact hab.trans hbc
  | false => exact hab.halts hbc

theorem trans (hab : Goes first a b) (hbc : Goes second b c) :
    Goes (first && second) a c := by
  cases first with
  | true => exact of_leads hab hbc
  | false => exact hab

theorem leads (hab : Goes first a b) (hbc : Leads b c) : Goes first a c := by
  cases first with
  | true => exact Leads.trans hab hbc
  | false => exact hab

end Goes

/-- A scanner between two tokens, outside brackets and without possible keys. -/
def behind (out rest : List Char) (tokens : List Token) (indent : Int)
    (indents : List Int) (allowed : Bool) : Scanner :=
  ⟨.behind out rest, tokens, tokens.length, indent, indents, 0, allowed, []⟩

variable {out rest : List Char} {tokens : List Token} {indent outer : Int}
  {indents : List Int} {allowed : Bool}

@[simp] theorem behind_cursor :
    (behind out rest tokens indent indents allowed).cursor =
      .behind out rest := rfl

@[simp] theorem behind_indent :
    (behind out rest tokens indent indents allowed).indent = indent := rfl

theorem unwind_of_le {scanner : Scanner} {column : Int}
    (hindent : scanner.indent ≤ column) :
    scanner.unwind column = scanner := by
  unfold unwind
  split
  · cases scanner.indents with
    | nil => rfl
    | cons outer rest => exact if_neg (Int.not_lt.mpr hindent)
  · rfl

theorem Leads.pop (hindent : columnOf out < indent) (rest : List Char)
    (tokens : List Token) (outer : Int) (indents : List Int) (allowed : Bool) :
    Leads (behind out rest tokens indent (outer :: indents) allowed)
      (behind out rest (.blockEnd :: tokens) outer indents allowed) := by
  refine ⟨0, by simp [behind], fun fuel kept => ⟨kept, ?_⟩⟩
  have hunwind :
      (behind out rest tokens indent (outer :: indents) allowed).unwind
        (columnOf out) =
      (behind out rest (.blockEnd :: tokens) outer indents allowed).unwind
        (columnOf out) := by
    show unwind.go (columnOf out) (outer :: indents)
      (behind out rest tokens indent (outer :: indents) allowed) = _
    exact if_pos hindent
  have hcolumn (tokens : List Token) (indent : Int) (indents : List Int) :
      (behind out rest tokens indent indents allowed).cursor.column =
        columnOf out := rfl
  rw [settle, settle, hcolumn, hcolumn, Nat.add_zero, hunwind]

end Scanner

/-- A text that starts with a token. -/
def Starts (rest : List Char) : Prop :=
  ∀ c ∈ rest.head?, c ≠ ' ' ∧ c ≠ '#' ∧ isBreak c = false

namespace Scanner

theorem skipOrderMark_of_index {scanner : Scanner}
    (hindex : scanner.cursor.index ≠ 0) :
    scanner.skipOrderMark = scanner := by
  rw [skipOrderMark, if_neg (by simp [hindex])]

theorem scan_of {step : Scan α} {scanner : Scanner} {value : α}
    {cursor : Cursor} (hstep : step scanner.cursor = .ok (value, cursor)) :
    scanner.scan step = .ok (value, { scanner with cursor }) := by
  rw [scan, hstep]

variable {rest : List Char}

theorem skipToToken_spaces {scanner : Scanner} {out : List Char}
    {count fuel : Nat}
    (hcursor : scanner.cursor = .behind out (List.replicate count ' ' ++ rest))
    (hrest : Starts rest) :
    skipToToken (fuel + 1) scanner =
      .ok { scanner with
        cursor := .behind (List.replicate count ' ' ++ out) rest } := by
  have hstep : (do
      Scan.skipSpaces
      Scan.skipComment
      Scan.lineBreak : Scan (Option Char)) scanner.cursor =
        .ok (none, .behind (List.replicate count ' ' ++ out) rest) := by
    rw [hcursor, Scan.bind_of
      (Scan.skipSpaces_behind count fun c hc => (hrest c hc).1),
      Scan.bind_of (Scan.skipComment_behind fun c hc => (hrest c hc).2.1)]
    exact Scan.lineBreak_none fun c hc => (hrest c hc).2.2
  rw [skipToToken, scan_of hstep]
  rfl

theorem skipToToken_line {scanner : Scanner} {out : List Char}
    {count fuel : Nat} (hbrackets : scanner.brackets = 0)
    (hcursor : scanner.cursor =
      .behind out ('\n' :: (List.replicate count ' ' ++ rest)))
    (hrest : Starts rest) :
    skipToToken (fuel + 2) scanner =
      .ok { scanner with
        cursor := .behind (Pen.line count out) rest, keyAllowed := true } := by
  have hstep : (do
      Scan.skipSpaces
      Scan.skipComment
      Scan.lineBreak : Scan (Option Char)) scanner.cursor =
        .ok (some '\n',
          .behind ('\n' :: out) (List.replicate count ' ' ++ rest)) := by
    have hspaces :
        Scan.skipSpaces
          (.behind out ('\n' :: (List.replicate count ' ' ++ rest))) =
        .ok ((), .behind out ('\n' :: (List.replicate count ' ' ++ rest))) :=
      Scan.skipSpaces_behind 0 (by simp)
    rw [hcursor, Scan.bind_of hspaces,
      Scan.bind_of (Scan.skipComment_behind (by simp))]
    exact Scan.lineBreak_behind rfl
  rw [skipToToken, scan_of hstep]
  show skipToToken (fuel + 1) (if scanner.brackets == 0 then _ else _) = _
  rw [if_pos (by simpa using hbrackets), skipToToken_spaces rfl hrest]
  rfl

theorem dropStale_of_line {scanner : Scanner}
    (hkeys : ∀ key ∈ scanner.keys, key.2.required = false ∧
      key.2.line < scanner.cursor.line) :
    scanner.dropStale = .ok { scanner with keys := [] } := by
  have hstale : ∀ key ∈ scanner.keys, scanner.isStale key.2 = true :=
    fun key hkey => by
      have hline := (hkeys key hkey).2
      simp [isStale, Nat.ne_of_lt hline]
  have hnone : (scanner.keys.any fun key => scanner.isStale key.2 &&
      key.2.required) = false := by
    rw [List.any_eq_false]
    intro key hkey
    simp [(hkeys key hkey).1]
  have hfilter :
      (scanner.keys.filter fun key => !scanner.isStale key.2) = [] := by
    rw [List.filter_eq_nil_iff]
    intro key hkey
    simp [hstale key hkey]
  rw [dropStale, hnone, hfilter]
  rfl

theorem rests_line {scanner : Scanner} {out : List Char} {count : Nat}
    (hout : out ≠ []) (hbrackets : scanner.brackets = 0)
    (hcursor : scanner.cursor =
      .behind out ('\n' :: (List.replicate count ' ' ++ rest)))
    (hkeys : ∀ key ∈ scanner.keys, key.2.required = false ∧
      key.2.line ≤ out.countP isBreak)
    (hrest : Starts rest) :
    scanner.rests = .ok { scanner with
      cursor := .behind (Pen.line count out) rest, keyAllowed :=
        true, keys := [] } := by
  have hindex : scanner.cursor.index ≠ 0 := by
    simpa [hcursor] using hout
  have hlength : scanner.cursor.rest.length + 1 =
      (List.replicate count ' ' ++ rest).length + 2 := by
    simp [hcursor]
  have hline : out.countP isBreak < (Pen.line count out).countP isBreak := by
    have hnewline : isBreak '\n' = true := rfl
    simp [Pen.line, hnewline]
    omega
  rw [rests, skipOrderMark_of_index hindex, hlength,
    skipToToken_line hbrackets hcursor hrest]
  exact dropStale_of_line fun key hkey =>
    ⟨(hkeys key hkey).1, Nat.lt_of_le_of_lt (hkeys key hkey).2 hline⟩

/-- Where a token starts, there is nothing to pass over. -/
theorem rests_eq_dropStale {scanner : Scanner} {out : List Char}
    (hout : out ≠ []) (hcursor : scanner.cursor = .behind out rest)
    (hrest : Starts rest) :
    scanner.rests = scanner.dropStale := by
  have hindex : scanner.cursor.index ≠ 0 := by
    simpa [hcursor] using hout
  have hspaces : scanner.cursor = .behind out (List.replicate 0 ' ' ++ rest) :=
    hcursor
  rw [rests, skipOrderMark_of_index hindex, skipToToken_spaces hspaces hrest,
    List.replicate_zero, List.nil_append, ← hcursor]
  rfl

theorem rests_passed {scanner : Scanner} {out : List Char} (hout : out ≠ [])
    (hcursor : scanner.cursor = .behind out rest)
    (hkeys : ∀ key ∈ scanner.keys, key.2.required = false ∧
      key.2.line < out.countP isBreak)
    (hrest : Starts rest) :
    scanner.rests = .ok { scanner with keys := [] } := by
  rw [rests_eq_dropStale hout hcursor hrest]
  exact dropStale_of_line fun key hkey => by
    simpa [hcursor] using hkeys key hkey

theorem rests_spaces {scanner : Scanner} {out : List Char} {count : Nat}
    (hout : out ≠ [])
    (hcursor : scanner.cursor = .behind out (List.replicate count ' ' ++ rest))
    (hkeys : scanner.keys = []) (hrest : Starts rest) :
    scanner.rests =
      .ok { scanner with
        cursor := .behind (List.replicate count ' ' ++ out) rest } := by
  have hindex : scanner.cursor.index ≠ 0 := by
    simpa [hcursor] using hout
  rw [rests, skipOrderMark_of_index hindex, skipToToken_spaces hcursor hrest]
  refine (dropStale_of_line (by simp [hkeys])).trans ?_
  simp [hkeys]

theorem rests_behind_space {out : List Char} (hout : out ≠ [])
    (hrest : Starts rest) (tokens : List Token) (indent : Int)
    (indents : List Int) (allowed : Bool) :
    (behind out (' ' :: rest) tokens indent indents allowed).rests =
      .ok (behind (' ' :: out) rest tokens indent indents allowed) := by
  have hcursor :
      (behind out (' ' :: rest) tokens indent indents allowed).cursor =
      .behind out (List.replicate 1 ' ' ++ rest) := rfl
  exact (rests_spaces hout hcursor rfl hrest).trans rfl

theorem rests_behind_line {out : List Char} {count : Nat} (hout : out ≠ [])
    (hrest : Starts rest) (tokens : List Token) (indent : Int)
    (indents : List Int) (allowed : Bool) :
    (behind out ('\n' :: (List.replicate count ' ' ++ rest)) tokens indent
      indents allowed).rests =
      .ok (behind (Pen.line count out) rest tokens indent indents true) :=
  (rests_line hout rfl rfl (fun _ hkey => absurd hkey List.not_mem_nil)
    hrest).trans rfl

/-- On its line and not too far on, a possible key stays. -/
theorem rests_key {scanner : Scanner} {out : List Char} (hout : out ≠ [])
    (hcursor : scanner.cursor = .behind out rest)
    (hkeys : ∀ key ∈ scanner.keys,
      key.2.line = out.countP isBreak ∧ out.length - key.2.index ≤ 1024)
    (hrest : Starts rest) : scanner.rests = .ok scanner := by
  have hfresh : ∀ key ∈ scanner.keys, scanner.isStale key.2 = false :=
    fun key hkey => by
      simp [isStale, hcursor, hkeys key hkey]
  have hnone : (scanner.keys.any fun key => scanner.isStale key.2 &&
      key.2.required) = false := by
    rw [List.any_eq_false]
    intro key hkey
    simp [hfresh key hkey]
  have hfilter : (scanner.keys.filter fun key => !scanner.isStale key.2) =
      scanner.keys := by
    rw [List.filter_eq_self]
    intro key hkey
    simp [hfresh key hkey]
  rw [rests_eq_dropStale hout hcursor hrest, dropStale, hnone, hfilter]
  rfl

/-- Possible keys that are too far back are given up, unless one of them had to
be a key. -/
theorem rests_far {scanner : Scanner} {out : List Char} (hout : out ≠ [])
    (hcursor : scanner.cursor = .behind out rest)
    (hkeys : ∀ key ∈ scanner.keys, 1024 < out.length - key.2.index)
    (hrest : Starts rest) :
    scanner.rests =
      if scanner.keys.any fun key => key.2.required then .error .malformed
      else .ok { scanner with keys := [] } := by
  have hstale : ∀ key ∈ scanner.keys, scanner.isStale key.2 = true :=
    fun key hkey => by
      simp [isStale, hcursor, hkeys key hkey]
  have hany : (scanner.keys.any fun key => scanner.isStale key.2 &&
      key.2.required) =
      scanner.keys.any fun key => key.2.required := by
    rw [Bool.eq_iff_iff, List.any_eq_true, List.any_eq_true]
    refine exists_congr fun key => and_congr_right fun hkey => ?_
    simp [hstale key hkey]
  have hfilter :
      (scanner.keys.filter fun key => !scanner.isStale key.2) = [] := by
    rw [List.filter_eq_nil_iff]
    rintro key hkey
    simp [hstale key hkey]
  rw [rests_eq_dropStale hout hcursor hrest, dropStale, hany, hfilter]

/-- The possible key that is noted at a place. -/
def noted (out : List Char) (tokens : List Token) (indent : Int)
    (allowed : Bool) :
    List (Nat × PossibleKey) :=
  if allowed then
    [(0, ⟨tokens.length, indent == (columnOf out : Int), out.length,
      out.countP isBreak, columnOf out⟩)]
  else []

theorem noteKey_behind (out rest : List Char) (tokens : List Token)
    (indent : Int) (indents : List Int) (allowed : Bool) :
    (behind out rest tokens indent indents allowed).noteKey =
      .ok { behind out rest tokens indent indents allowed with
        keys := noted out tokens indent allowed } := by
  cases allowed <;> rfl

theorem fetchNode_behind {step : Scan Token} {out rest : List Char}
    {token : Token} {after : Cursor}
    (hstep : step (.behind out rest) = .ok (token, after)) (tokens : List Token)
    (indent : Int) (indents : List Int) (allowed : Bool) :
    (behind out rest tokens indent indents allowed).fetchNode step =
      .ok ⟨after, token :: tokens, (token :: tokens).length, indent,
        indents, 0, false, noted out tokens indent allowed⟩ := by
  rw [fetchNode, noteKey_behind]
  show (scan step { behind out rest tokens indent indents false with
    keys := noted out tokens indent allowed } >>= _) = _
  rw [scan_of (by exact hstep)]
  rfl

theorem fetchPlain_behind {out rest : List Char} {text : String} {broken : Bool}
    {after : Cursor} {indent : Int}
    (hscan : scanPlain false indent (.behind out rest) =
      .ok ((text, broken), after)) (tokens : List Token) (indents : List Int)
    (allowed : Bool) :
    (behind out rest tokens indent indents allowed).fetchPlain =
      .ok ⟨after, .scalar text true :: tokens,
        (Token.scalar text true :: tokens).length, indent, indents, 0, broken,
        noted out tokens indent allowed⟩ := by
  rw [fetchPlain, noteKey_behind]
  show (scan (scanPlain false indent)
      { behind out rest tokens indent indents allowed with
        keys := noted out tokens indent allowed } >>= _) = _
  rw [scan_of (by exact hscan)]
  rfl

/-- Brackets that belong together, and what they are read as. -/
inductive IsPair : Char → Token → Char → Token → Prop
  | sequence : IsPair '[' .flowSequenceStart ']' .flowSequenceEnd
  | mapping : IsPair '\x7b' .flowMappingStart '\x7d' .flowMappingEnd

section

variable {scanner : Scanner}

theorem fetch_single (hpeek : scanner.cursor.peek 0 = '\'') :
    scanner.fetch =
      scanner.fetchNode ((scanQuoted false).map (.scalar · false)) := by
  simp [fetch, Cursor.atMark, hpeek]

theorem fetch_double (hpeek : scanner.cursor.peek 0 = '"') :
    scanner.fetch =
      scanner.fetchNode ((scanQuoted true).map (.scalar · false)) := by
  simp [fetch, Cursor.atMark, hpeek]

theorem fetch_value (hpeek : scanner.cursor.peek 0 = ':')
    (hnext : endsToken (scanner.cursor.peek 1) = true) :
    scanner.fetch = scanner.fetchValue := by
  simp [fetch, Cursor.atMark, hpeek, hnext]

theorem fetch_key (hpeek : scanner.cursor.peek 0 = '?')
    (hnext : endsToken (scanner.cursor.peek 1) = true) :
    scanner.fetch = scanner.fetchIndicator .key := by
  simp [fetch, Cursor.atMark, hpeek, hnext]

theorem fetch_entry (hpeek : scanner.cursor.peek 0 = '-')
    (hnext : endsToken (scanner.cursor.peek 1) = true) :
    scanner.fetch = scanner.fetchBlockEntry := by
  have hother : scanner.cursor.peek 1 ≠ '-' := by
    intro heq
    rw [heq] at hnext
    cases hnext
  simp [fetch, Cursor.atMark, hpeek, hnext, hother]

theorem fetch_opening {opening closing : Char} {first second : Token}
    (hpair : IsPair opening first closing second)
    (hpeek : scanner.cursor.peek 0 = opening) :
    scanner.fetch = scanner.fetchOpening first := by
  cases hpair <;> simp [fetch, Cursor.atMark, hpeek]

theorem fetch_closing {opening closing : Char} {first second : Token}
    (hpair : IsPair opening first closing second)
    (hpeek : scanner.cursor.peek 0 = closing) :
    scanner.fetch = scanner.fetchClosing second := by
  cases hpair <;> simp [fetch, Cursor.atMark, hpeek]

end

section

variable {opening closing : Char} {first second : Token}
  (hpair : IsPair opening first closing second) (out rest : List Char)
  (tokens : List Token) (indent : Int) (indents : List Int)

include hpair

theorem fetch_opening_behind (allowed : Bool) :
    (behind out (opening :: rest) tokens indent indents allowed).fetch =
      .ok ⟨.behind (opening :: out) rest, first :: tokens,
        (first :: tokens).length, indent, indents, 1, true,
        noted out tokens indent allowed⟩ := by
  have htame : Tame opening := by cases hpair <;> decide
  rw [fetch_opening hpair rfl, fetchOpening, noteKey_behind]
  exact congrArg (fun cursor => Except.ok (Scanner.mk cursor (first :: tokens)
    (first :: tokens).length indent indents 1 true
    (noted out tokens indent allowed))) (advance_behind htame out rest)

theorem fetch_closing_behind {keys : List (Nat × PossibleKey)}
    (hkeys : keys.lookup 1 = none) :
    (Scanner.mk (.behind out (closing :: rest)) tokens tokens.length indent
      indents 1 true keys).fetch =
      .ok ⟨.behind (closing :: out) rest, second :: tokens,
        (second :: tokens).length, indent, indents, 0, false, keys⟩ := by
  have htame : Tame closing := by cases hpair <;> decide
  rw [fetch_closing hpair rfl, fetchClosing, dropKey, key?]
  simp only [hkeys]
  exact congrArg (fun cursor => Except.ok (Scanner.mk cursor (second :: tokens)
    (second :: tokens).length indent indents 0 false keys))
    (advance_behind htame out rest)

end

def openedTokens (column : Nat) (token : Token) (indent : Int)
    (tokens : List Token) : List Token :=
  if indent < column then token :: tokens else tokens

def openedIndents (column : Nat) (indent : Int) (indents : List Int) :
    List Int :=
  if indent < column then indent :: indents else indents

section

variable {out rest : List Char} {tokens : List Token} {indent : Int}
  {indents : List Int}

theorem openBlock_behind (hindent : indent ≤ columnOf out) (token : Token)
    (allowed : Bool) :
    (behind out rest tokens indent indents allowed).openBlock token =
      behind out rest (openedTokens (columnOf out) token indent tokens)
      (columnOf out)
        (openedIndents (columnOf out) indent indents) allowed := by
  have hdeeper : (behind out rest tokens indent indents allowed).isDeeper
      (columnOf out) =
      decide (indent < (columnOf out : Int)) := rfl
  unfold openedTokens openedIndents
  by_cases hless : indent < columnOf out
  · rw [if_pos hless, if_pos hless]
    exact if_pos (by simpa [hdeeper] using hless)
  · obtain rfl : indent = columnOf out := by omega
    rw [if_neg hless, if_neg hless]
    exact if_neg (by simp [hdeeper])

theorem skip_push {mark : Char} (hmark : Tame mark) (tokens : List Token)
    (indent : Int) (indents : List Int) (allowed : Bool) (token : Token) :
    ((behind out (mark :: rest) tokens indent indents allowed).skip 1).push
      token =
      behind (mark :: out) rest (token :: tokens) indent indents allowed := by
  have hcursor : (Cursor.behind out (mark :: rest)).skip 1 =
      .behind (mark :: out) rest :=
    advance_behind hmark out rest
  unfold skip push
  rw [behind_cursor, hcursor]
  rfl

theorem fetchBlockEntry_behind (hindent : indent ≤ columnOf out) :
    (behind out ('-' :: rest) tokens indent indents true).fetchBlockEntry =
      .ok (behind ('-' :: out) rest
        (.blockEntry :: openedTokens (columnOf out) .blockSequenceStart indent
          tokens) (columnOf out)
        (openedIndents (columnOf out) indent indents) true) := by
  show ((openBlock .blockSequenceStart
      (behind out ('-' :: rest) tokens indent indents true)).allowKey
    true).dropKey >>= _ = _
  rw [openBlock_behind hindent]
  exact congrArg Except.ok (skip_push (by decide) _ _ _ _ _)

theorem fetchIndicator_behind (hindent : indent ≤ columnOf out) {mark : Char}
    (hmark : Tame mark) (token : Token) :
    (behind out (mark :: rest) tokens indent indents true).fetchIndicator
      token =
      .ok (behind (mark :: out) rest
        (token :: openedTokens (columnOf out) .blockMappingStart indent tokens)
        (columnOf out) (openedIndents (columnOf out) indent indents) true) := by
  show ((openBlock .blockMappingStart
      (behind out (mark :: rest) tokens indent indents true)).allowKey
    true).dropKey >>= _ = _
  rw [openBlock_behind hindent]
  exact congrArg Except.ok (skip_push hmark _ _ _ _ _)

theorem insert_behind (found : List Token) (token : Token) (allowed : Bool) :
    (behind out rest (found ++ tokens) indent indents allowed).insert
      tokens.length token =
      behind out rest (found ++ token :: tokens) indent indents allowed := by
  have hlater :
      (behind out rest (found ++ tokens) indent indents allowed).count -
        tokens.length =
      found.length := by
    simp [behind]
  have hcount : (found ++ tokens).length + 1 =
      (found ++ token :: tokens).length := by
    simp
    omega
  unfold insert
  simp only [hlater]
  simp only [behind, List.take_left, List.drop_left, hcount]

theorem fetchValue_noted {later : List Char} {scalar : Token}
    (hindent : indent ≤ columnOf out) (required : Bool) (index line : Nat) :
    (Scanner.mk (.behind later (':' :: rest)) (scalar :: tokens)
      (scalar :: tokens).length indent
        indents 0 false
        [(0, ⟨tokens.length, required, index, line,
          columnOf out⟩)]).fetchValue =
      .ok (behind (':' :: later) rest
        (.value :: scalar :: .key ::
          openedTokens (columnOf out) .blockMappingStart indent tokens)
        (columnOf out)
        (openedIndents (columnOf out) indent indents) false) := by
  have hkeyed :
      (behind later (':' :: rest) (scalar :: tokens) indent indents
        false).insert tokens.length .key =
        behind later (':' :: rest) ([scalar, .key] ++ tokens) indent
          indents false :=
    insert_behind [scalar] .key false
  have hdeeper :
      (behind later (':' :: rest) ([scalar, .key] ++ tokens) indent indents
        false).isDeeper (columnOf out) =
        decide (indent < (columnOf out : Int)) := rfl
  have hannounce : announce ⟨tokens.length, required, index, line, columnOf out⟩
      (Scanner.mk (.behind later (':' :: rest)) (scalar :: tokens)
        (scalar :: tokens).length indent indents 0 false
          [(0, ⟨tokens.length, required, index, line, columnOf out⟩)]) =
      behind later (':' :: rest) ([scalar, .key] ++
        openedTokens (columnOf out) .blockMappingStart indent tokens)
        (columnOf out) (openedIndents (columnOf out) indent indents) false := by
    show (if 0 == 0 &&
        ((behind later (':' :: rest) (scalar :: tokens) indent indents
          false).insert tokens.length .key).isDeeper (columnOf out) then _
          else _) = _
    rw [hkeyed, hdeeper, openedTokens, openedIndents]
    by_cases hless : indent < columnOf out
    · rw [if_pos hless, if_pos hless, if_pos (by simpa using hless)]
      show (Scanner.indentTo (columnOf out)
          ((behind later (':' :: rest) (scalar :: tokens) indent indents
            false).insert tokens.length .key)).insert tokens.length
          .blockMappingStart = _
      rw [hkeyed]
      exact insert_behind [scalar, .key] .blockMappingStart false
    · obtain rfl : indent = columnOf out := by omega
      rw [if_neg hless, if_neg hless, if_neg (by simp)]
      exact hkeyed
  show Except.ok ((((announce _ _).allowKey false).skip 1).push .value) = _
  rw [hannounce]
  exact congrArg Except.ok (skip_push (by decide) _ _ _ _ _)

end

end Scanner

end Fragments.Yaml
