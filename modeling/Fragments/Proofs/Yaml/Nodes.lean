import Fragments.Proofs.Yaml.Keys

namespace Fragments.Yaml

open Cursor Scanner

/-- What is written behind a mark is read as a node. A `compact` one stands
where a key may start. -/
structure ReadsNode (well : Bool) (indent : Nat) (compact : Bool)
    (out chunk : List Char) (found : List Token) : Prop where
  front : ∃ c more, chunk = c :: more ∧ endsToken c = true
  goes : ∀ {column : Nat} {rest : List Char}, column ≤ indent →
    Follows column rest →
      ∀ (tokens : List Token) (indents : List Int), ∃ settled,
        (behind out (chunk ++ '\n' :: (List.replicate column ' ' ++ rest))
          tokens indent indents compact).rests = .ok settled ∧
      settled.cursor.rest.length ≤
        (chunk ++ '\n' :: (List.replicate column ' ' ++ rest)).length ∧
      Goes well settled (behind (Pen.line column (chunk.reverse ++ out)) rest
        (found.reverse ++ tokens) indent indents true)

/-- Lines that start at one column are read as parts of a block, which `opening`
opens where it is not open yet. -/
structure ReadsBlock (well : Bool) (opening : Token) (out chunk : List Char)
    (found : List Token) :
    Prop where
  follows : ∀ rest, Follows (columnOf out) (chunk ++ '\n' :: rest)
  goes : ∀ {column : Nat} {rest : List Char}, column ≤ columnOf out →
    Follows column rest →
      ∀ (tokens : List Token) {indent : Int} (indents : List Int),
        indent ≤ columnOf out →
          Goes well
            (behind out (chunk ++ '\n' :: (List.replicate column ' ' ++ rest))
              tokens indent indents true)
        (behind (Pen.line column (chunk.reverse ++ out)) rest
          (found.reverse ++ openedTokens (columnOf out) opening indent tokens)
          (columnOf out) (openedIndents (columnOf out) indent indents) true)

theorem openedTokens_self (column : Nat) (opening : Token)
    (tokens : List Token) :
    openedTokens column opening column tokens = tokens :=
  if_neg (Int.lt_irrefl _)

theorem openedIndents_self (column : Nat) (indents : List Int) :
    openedIndents column column indents = indents :=
  if_neg (Int.lt_irrefl _)

variable {well alsoWell : Bool} {indent : Nat} {compact : Bool}
  {opening : Token} {out chunk more : List Char} {found others : List Token}

theorem ReadsBlock.append (hfirst : ReadsBlock well opening out chunk found)
    (hrest : ReadsBlock alsoWell opening
      (Pen.line (columnOf out) (chunk.reverse ++ out)) more others) :
    ReadsBlock (well && alsoWell) opening out
      (chunk ++ '\n' :: (List.replicate (columnOf out) ' ' ++ more))
      (found ++ others) := by
  refine ⟨fun rest =>
    ?_, fun {column rest} hleft hfollows tokens {indent} indents hindent => ?_⟩
  · have hfollows :=
      hfirst.follows (List.replicate (columnOf out) ' ' ++ more ++ '\n' :: rest)
    simpa using hfollows
  · have hnext := hrest.follows (List.replicate column ' ' ++ rest)
    rw [Pen.columnOf_line] at hnext
    have hlead := hfirst.goes (Nat.le_refl _) hnext tokens indents hindent
    have hself : ((columnOf out : Nat) : Int) ≤
        columnOf (Pen.line (columnOf out) (chunk.reverse ++ out)) := by
      simp
    have hlater := hrest.goes (by rwa [Pen.columnOf_line]) hfollows
      (found.reverse ++ openedTokens (columnOf out) opening indent tokens)
      (openedIndents (columnOf out) indent indents) hself
    rw [Pen.columnOf_line, openedTokens_self, openedIndents_self] at hlater
    have hall := hlead.trans hlater
    simpa [Pen.line] using hall

theorem starts_append {chunk rest : List Char} (hnonempty : chunk ≠ [])
    (hstarts : Starts chunk) :
    Starts (chunk ++ rest) := by
  intro c hc
  rw [List.head?_append_of_ne_nil _ hnonempty] at hc
  exact hstarts c hc

theorem Reads.node (hreads : Reads indent (' ' :: out) chunk found)
    (hout : out ≠ []) :
    ReadsNode true indent compact out (' ' :: chunk) found := by
  refine ⟨⟨' ', chunk, rfl, rfl⟩,
    fun {column rest} hleft hfollows tokens indents => ?_⟩
  refine ⟨_, rests_behind_space hout
    (starts_append hreads.nonempty hreads.starts) _ _ _ _, ?_, ?_⟩
  · simp
  · have hleads := hreads.leads hleft hfollows tokens indents compact
    simpa [Goes] using hleads

theorem ReadsBlock.closed (hblock : ReadsBlock well opening out chunk found)
    (hindent : indent < columnOf out) {column : Nat} {rest : List Char}
    (hleft : column ≤ indent) (hfollows : Follows column rest)
    (tokens : List Token) (indents : List Int) :
    Goes well
      (behind out (chunk ++ '\n' :: (List.replicate column ' ' ++ rest)) tokens
        indent indents true)
      (behind (Pen.line column (chunk.reverse ++ out)) rest
        ((opening :: found ++ [Token.blockEnd]).reverse ++ tokens) indent
          indents true) := by
  have hopened : (indent : Int) < columnOf out := by omega
  have hgoes := hblock.goes (by omega) hfollows tokens indents
    (Int.le_of_lt hopened)
  rw [openedTokens, openedIndents, if_pos hopened, if_pos hopened] at hgoes
  have hout : (columnOf (Pen.line column (chunk.reverse ++ out)) : Int) <
      columnOf out := by
    rw [Pen.columnOf_line]
    omega
  have hall := hgoes.leads (Leads.pop hout _ _ _ _ _)
  simpa using hall

theorem ReadsBlock.node_compact
    (hblock : ReadsBlock well opening (' ' :: out) chunk found)
    (hcolumn : indent ≤ columnOf out) (hout : out ≠ []) :
    ReadsNode well indent true out (' ' :: chunk)
    (opening :: found ++ [Token.blockEnd]) := by
  refine ⟨⟨' ', chunk, rfl, rfl⟩,
    fun {column rest} hleft hfollows tokens indents => ?_⟩
  refine ⟨_, rests_behind_space hout (hblock.follows _).starts _ _ _ _, ?_, ?_⟩
  · simp
  · have hdeeper : indent < columnOf (' ' :: out) := by
      rw [columnOf_cons rfl]
      omega
    have hgoes := hblock.closed hdeeper hleft hfollows tokens indents
    simpa using hgoes

theorem ReadsBlock.node_below {inner : Nat}
    (hblock : ReadsBlock well opening (Pen.line inner out) chunk found)
    (hcolumn : indent < inner) (hout : out ≠ []) :
    ReadsNode well indent false out
      ('\n' :: (List.replicate inner ' ' ++ chunk))
      (opening :: found ++ [Token.blockEnd]) := by
  refine ⟨⟨'\n', _, rfl, rfl⟩,
    fun {column rest} hleft hfollows tokens indents => ?_⟩
  rw [List.cons_append, List.append_assoc]
  refine ⟨_, rests_behind_line hout (hblock.follows _).starts _ _ _ _, ?_, ?_⟩
  · simp
    omega
  · have hdeeper : indent < columnOf (Pen.line inner out) := by
      rwa [Pen.columnOf_line]
    have hgoes := hblock.closed hdeeper hleft hfollows tokens indents
    simpa [Pen.line] using hgoes

theorem ReadsBlock.node_level
    (hblock : ReadsBlock well opening (Pen.line indent out) chunk found)
    (hout : out ≠ []) :
    ReadsNode well indent false out
      ('\n' :: (List.replicate indent ' ' ++ chunk)) found := by
  refine ⟨⟨'\n', _, rfl, rfl⟩,
    fun {column rest} hleft hfollows tokens indents => ?_⟩
  rw [List.cons_append, List.append_assoc]
  refine ⟨_, rests_behind_line hout (hblock.follows _).starts _ _ _ _, ?_, ?_⟩
  · simp
    omega
  · have hself : ((indent : Nat) : Int) ≤ columnOf (Pen.line indent out) := by
      simp
    have hgoes := hblock.goes (by rwa [Pen.columnOf_line]) hfollows tokens
      indents hself
    rw [Pen.columnOf_line, openedTokens_self, openedIndents_self] at hgoes
    simpa [Pen.line] using hgoes

/-- The marks that stand in front of a node, the tokens they are read as and the
blocks they open. -/
inductive IsMark : Char → Token → Token → Prop
  | entry : IsMark '-' .blockEntry .blockSequenceStart
  | key : IsMark '?' .key .blockMappingStart
  | value : IsMark ':' .value .blockMappingStart

theorem fetch_mark {mark : Char} {token : Token}
    (hmark : IsMark mark token opening) {next : Char}
    (hnext : endsToken next = true) {indent : Int}
    (hindent : indent ≤ columnOf out) (rest : List Char) (tokens : List Token)
    (indents : List Int) :
    (behind out (mark :: next :: rest) tokens indent indents true).fetch =
      .ok (behind (mark :: out) (next :: rest)
        (token :: openedTokens (columnOf out) opening indent tokens)
        (columnOf out) (openedIndents (columnOf out) indent indents) true) := by
  have hnext : endsToken
      ((behind out (mark :: next :: rest) tokens indent indents
        true).cursor.peek 1) = true := hnext
  cases hmark with
  | entry =>
      exact (fetch_entry rfl hnext).trans (fetchBlockEntry_behind hindent)
  | key =>
      exact (fetch_key rfl hnext).trans
        (fetchIndicator_behind hindent (by decide) _)
  | value =>
      exact (fetch_value rfl hnext).trans
        (fetchIndicator_behind hindent (by decide) _)

theorem unmarked_mark {mark next : Char} {token : Token}
    (hmark : IsMark mark token opening) (hnext : endsToken next = true)
    (rest : List Char) :
    Scan.Unmarked (mark :: next :: rest) := by
  cases hmark with
  | entry =>
      constructor
      · rintro ⟨_, ⟨⟩⟩
        cases hnext
      · rintro ⟨_, ⟨⟩⟩
  | key => exact Scan.unmarked_cons (by decide) (by decide) _
  | value => exact Scan.unmarked_cons (by decide) (by decide) _

theorem ReadsNode.marked {mark : Char} {token : Token}
    (hmark : IsMark mark token opening)
    (hnode : ReadsNode well (columnOf out) true (mark :: out) chunk found) :
    ReadsBlock well opening out (mark :: chunk) (token :: found) := by
  obtain ⟨next, rest, rfl, hnext⟩ := hnode.front
  refine ⟨fun rest =>
    ⟨?_, ?_⟩,
      fun {column rest} hleft hfollows tokens {indent} indents hindent => ?_⟩
  · rintro _ ⟨⟩
    cases hmark <;> decide
  · by_cases hzero : columnOf out = 0
    · rw [hzero, List.replicate_zero, List.nil_append]
      exact unmarked_mark hmark hnext _
    · exact Scan.unmarked_spaces (Nat.pos_of_ne_zero hzero) _
  · obtain ⟨settled, hrests, hless, hgoes⟩ := hnode.goes hleft hfollows
      (token :: openedTokens (columnOf out) opening indent tokens)
      (openedIndents (columnOf out) indent indents)
    refine .of_leads (Leads.step (unwind_of_le (by simpa using hindent)) ?_
      (fetch_mark hmark hnext hindent _ _ _) hrests) ?_
    · simpa using Nat.lt_succ_of_le hless
    · simpa using hgoes

theorem ReadsNode.keyed {key : String} (hkey : isSimpleKey key = true)
    (hnode : ReadsNode well (columnOf out) false
      (':' :: ((keyChars key).reverse ++ out)) chunk found) :
    ReadsBlock (fitsKey key && well) .blockMappingStart out
      (keyChars key ++ ':' :: chunk)
      (.key :: keyToken key :: .value :: found) := by
  obtain ⟨next, later, rfl, hnext⟩ := hnode.front
  refine ⟨fun rest =>
    ⟨?_, ?_⟩,
      fun {column rest} hleft hfollows tokens {indent} indents hindent => ?_⟩
  · rw [List.append_assoc]
    exact starts_append keyChars_ne_nil starts_keyChars
  · by_cases hzero : columnOf out = 0
    · rw [hzero, List.replicate_zero, List.nil_append, List.append_assoc]
      exact unmarked_keyChars _
    · exact Scan.unmarked_spaces (Nat.pos_of_ne_zero hzero) _
  · obtain ⟨settled, hrests, hless, hgoes⟩ := hnode.goes hleft hfollows
      (.value :: keyToken key :: .key ::
        openedTokens (columnOf out) .blockMappingStart indent tokens)
      (openedIndents (columnOf out) indent indents)
    rcases Nat.lt_or_ge 1024 (keyChars key).length with hlong | hshort
    · have hunfit : fitsKey key = false := by simp [fitsKey, hkey, hlong]
      have hall : Halts (behind out (keyChars key ++ ':' :: next :: (later ++
          '\n' :: (List.replicate column ' ' ++ rest))) tokens indent
          indents true) :=
        halts_key hkey hlong hindent hnext tokens indents
      rw [hunfit]
      simpa [Goes] using hall
    · have hfit : fitsKey key = true := by simp [fitsKey, hshort]
      have hall := Goes.of_leads
        (leads_key hkey hshort hindent hnext hrests (by simpa using hless))
          hgoes
      rw [hfit]
      simpa using hall

end Fragments.Yaml
