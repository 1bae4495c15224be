import Fragments.Proofs.Data.Parts
import Fragments.Proofs.Yaml.Nodes
import Fragments.Proofs.Yaml.Numbers

namespace Fragments.Yaml

open Scanner

mutual

def tokensOf (column : Nat) (compact : Bool) : Json → List Token
  | .null => [.scalar "null" true]
  | .bool value => [.scalar (if value then "true" else "false") true]
  | .int value => [.scalar (toString value) true]
  | .float value => [.scalar (String.ofList (floatText value)) true]
  | .text value => [textToken (column + 2) value]
  | .array [] => [.flowSequenceStart, .flowSequenceEnd]
  | .array items =>
      if compact then .blockSequenceStart :: itemTokens (column + 2) items ++
        [.blockEnd]
      else itemTokens column items
  | .object [] => [.flowMappingStart, .flowMappingEnd]
  | .object entries =>
      .blockMappingStart :: entryTokens (column + 2) entries ++ [.blockEnd]

def itemTokens (column : Nat) : List Json → List Token
  | [] => []
  | item :: rest =>
      .blockEntry :: tokensOf column true item ++ itemTokens column rest

def entryTokens (column : Nat) : List (String × Json) → List Token
  | [] => []
  | (key, value) :: rest =>
      .key :: (if isSimpleKey key then keyToken key
        else textToken (column + 2) key) :: .value ::
        tokensOf column (!isSimpleKey key) value ++ entryTokens column rest

end

mutual

def fitKeys : Json → Bool
  | .array items => allFitKeys items
  | .object entries => entriesFitKeys entries
  | _ => true

def allFitKeys : List Json → Bool
  | [] => true
  | item :: rest => fitKeys item && allFitKeys rest

def entriesFitKeys : List (String × Json) → Bool
  | [] => true
  | (key, value) :: rest => fitsKey key && fitKeys value && entriesFitKeys rest

end

/-- Behind a mark of a block a value may start on the same line; behind the
colon of a key that announces itself a block starts below. -/
structure BehindMark (column : Nat) (afterKey compact : Bool)
    (out : List Char) : Prop where
  deeper : column + 1 ≤ columnOf out
  mark : compact = true → columnOf out = column + 1
  key : compact = false → afterKey = true

/-- Behind a mark, a value is written as it is read. -/
def WritesNode (well : Bool) (value : Json) : Prop :=
  ∀ ⦃column : Nat⦄ ⦃afterKey compact : Bool⦄ ⦃out : List Char⦄,
    BehindMark column afterKey compact out →
    ∃ chunk spaced, writeNode (some column) afterKey
      (.behind out false compact) value =
        .behind (chunk.reverse ++ out) spaced false ∧
      ReadsNode well column compact out chunk (tokensOf column compact value)

theorem BehindMark.lt_columnOf_blank {column : Nat} {afterKey compact : Bool}
    {out : List Char} (hplaced : BehindMark column afterKey compact out) :
    column < columnOf (' ' :: out) := by
  rw [columnOf_cons rfl]
  exact Nat.lt_succ_of_le (Nat.le_of_succ_le hplaced.deeper)

theorem BehindMark.ne_nil {column : Nat} {afterKey compact : Bool}
    {out : List Char} (hplaced : BehindMark column afterKey compact out) :
    out ≠ [] :=
  ne_nil_of_columnOf hplaced.deeper

theorem writePlain_apart (fold : Bool) (indent : Nat) {chars : List Char}
    (hnonempty : chars ≠ []) (out : List Char) (fresh : Bool) :
    writePlain fold indent chars (.behind out false fresh) =
      writePlain fold indent chars (.behind (' ' :: out) true fresh) := by
  have hblank : (Pen.behind out false fresh).write [' '] =
      .behind (' ' :: out) false fresh :=
    Pen.write_behind (by decide)
  have hgoes : ¬chars.isEmpty = true := by simpa using hnonempty
  rw [writePlain, writePlain, if_neg hgoes, if_neg hgoes]
  show writePlainRuns fold indent
      { (Pen.behind out false fresh).write [' '] with
        spaced := false, fresh := false } (runs chars) = _
  rw [hblank]
  rfl

theorem mark_apart {mark : Char} (hmark : isBreak mark = false)
    (out : List Char) (fresh spaced later : Bool) :
    (Pen.behind out false fresh).mark [mark] true spaced later =
      (Pen.behind (' ' :: out) true fresh).mark [mark] true spaced later := by
  rw [Pen.mark_behind (by simpa using hmark),
    Pen.mark_behind (by simpa using hmark)]
  rfl

theorem writeText_apart (indent : Nat) (text : String) (out : List Char)
    (fresh : Bool) :
    writeText false indent text (.behind out false fresh) =
      writeText false indent text (.behind (' ' :: out) true fresh) := by
  unfold writeText
  cases hstyle : Style.ofText false text with
  | plain => exact writePlain_apart _ _ (Style.ofText_eq_plain hstyle).2.2 _ _
  | single =>
      simp only [writeSingle, mark_apart (show isBreak '\'' = false from rfl)]
  | double =>
      simp only [writeDouble, mark_apart (show isBreak '"' = false from rfl)]

theorem writesNode_plain {value : Json} {chars : List Char}
    (hplain : Style.allowsPlain chars = true) (hnonempty : chars ≠ [])
    (hwritten : ∀ (column : Nat) (afterKey : Bool) (pen : Pen),
      writeNode (some column) afterKey pen value =
        writePlain true (column + 2) chars pen)
    (htokens : ∀ (column : Nat) (compact : Bool),
      tokensOf column compact value = [.scalar (String.ofList chars) true]) :
      WritesNode true value := by
  intro column afterKey compact out hplaced
  have hcolumn := hplaced.lt_columnOf_blank
  obtain ⟨chunk, hchunk, hreads⟩ := reads_plain hcolumn hplain hnonempty compact
  refine ⟨' ' :: chunk, false, ?_, ?_⟩
  · rw [hwritten, writePlain_apart true (column + 2) hnonempty, hchunk]
    simp
  · rw [htokens]
    exact hreads.node hplaced.ne_nil

theorem writesNode_text (value : String) : WritesNode true (.text value) := by
  intro column afterKey compact out hplaced
  have hcolumn : column + 2 ≤ columnOf (' ' :: out) := by
    rw [columnOf_cons rfl]
    exact Nat.succ_le_succ hplaced.deeper
  obtain ⟨chunk, hchunk, hreads⟩ := reads_text hcolumn value compact
  refine ⟨' ' :: chunk, false, ?_, ?_⟩
  · rw [writeNode]
    show writeText false (column + 2) value _ = _
    rw [writeText_apart, hchunk]
    simp
  · rw [tokensOf]
    exact hreads.node hplaced.ne_nil

theorem writesNode_pair {value : Json} {opening closing : Char}
    {first second : Token} (hpair : IsPair opening first closing second)
    (hwritten : ∀ (column : Nat) (afterKey : Bool) (pen : Pen),
      writeNode (some column) afterKey pen value =
        (pen.mark [opening] true true false).mark [closing] false false false)
    (htokens : ∀ (column : Nat) (compact : Bool),
      tokensOf column compact value = [first, second]) :
      WritesNode true value := by
  intro column afterKey compact out hplaced
  have hcolumn := hplaced.lt_columnOf_blank
  have hmarks : isBreak opening = false ∧ isBreak closing = false := by
    cases hpair <;> decide
  refine ⟨[' ', opening, closing], false, ?_, ?_⟩
  · rw [hwritten, Pen.mark_behind (by simpa using hmarks.1),
      Pen.mark_behind (by simpa using hmarks.2)]
    simp
  · rw [htokens]
    exact (reads_pair hcolumn hpair).node hplaced.ne_nil

/-- From a column on, lines are written as they are read. -/
def WritesBlock (well : Bool) (opening : Token) (write : Nat → Pen → Pen)
    (tokens : Nat → List Token) : Prop :=
  ∀ ⦃out : List Char⦄ ⦃pen : Pen⦄,
    pen.indentTo (columnOf out) = .behind out true true →
    ∃ chunk spaced, write (columnOf out) pen = .behind (chunk.reverse ++ out)
      spaced false ∧
      ReadsBlock well opening out chunk (tokens (columnOf out))

theorem WritesBlock.below {well : Bool} {opening : Token}
    {write : Nat → Pen → Pen} {tokens : Nat → List Token}
    (hblock : WritesBlock well opening write tokens) (column : Nat)
    (out : List Char) (spaced : Bool) :
    ∃ chunk later, write column (.behind out spaced false) =
        .behind (chunk.reverse ++ Pen.line column out) later false ∧
      ReadsBlock well opening (Pen.line column out) chunk (tokens column) := by
  have hplaced :
      (Pen.behind out spaced false).indentTo (columnOf (Pen.line column out)) =
      .behind (Pen.line column out) true true := by
    rw [Pen.columnOf_line, Pen.indentTo_line]
  have hblock := hblock hplaced
  rwa [Pen.columnOf_line] at hblock

theorem WritesBlock.compact {well : Bool} {opening : Token}
    {write : Nat → Pen → Pen} {tokens : Nat → List Token}
    (hblock : WritesBlock well opening write tokens) {column : Nat}
    {out : List Char} (hcolumn : columnOf out = column + 1) :
    ∃ chunk later, write (column + 2) (.behind out false true) =
        .behind (chunk.reverse ++ ' ' :: out) later false ∧
      ReadsBlock well opening (' ' :: out) chunk (tokens (column + 2)) := by
  have hindent : columnOf (' ' :: out) = column + 2 := by
    rw [columnOf_cons rfl, hcolumn]
  have hplaced : (Pen.behind out false true).indentTo (columnOf (' ' :: out)) =
      .behind (' ' :: out) true true := by
    rw [Pen.indentTo_fresh (by omega), hindent, hcolumn]
    simp
  have hblock := hblock hplaced
  rwa [hindent] at hblock

theorem WritesBlock.node {well : Bool} {opening : Token}
    {write : Nat → Pen → Pen} {tokens : Nat → List Token}
    (hblock : WritesBlock well opening write tokens) {column : Nat}
    {afterKey compact : Bool} {out : List Char}
    (hplaced : BehindMark column afterKey compact out) :
    ∃ chunk spaced, write (column + 2) (.behind out false compact) =
        .behind (chunk.reverse ++ out) spaced false ∧
      ReadsNode well column compact out chunk
        (opening :: tokens (column + 2) ++ [Token.blockEnd]) := by
  cases compact with
  | true =>
      obtain ⟨chunk, spaced, hchunk, hreads⟩ :=
        hblock.compact (hplaced.mark rfl)
      refine ⟨' ' :: chunk, spaced, by simpa using hchunk,
        hreads.node_compact ?_ hplaced.ne_nil⟩
      exact Nat.le_of_succ_le hplaced.deeper
  | false =>
      obtain ⟨chunk, spaced, hchunk, hreads⟩ :=
        hblock.below (column + 2) out false
      exact ⟨'\n' :: (List.replicate (column + 2) ' ' ++ chunk), spaced,
        by simpa [Pen.line] using hchunk,
        hreads.node_below (Nat.lt_add_of_pos_right (by decide)) hplaced.ne_nil⟩

theorem WritesBlock.cons {well alsoWell : Bool} {opening : Token}
    {first rest : Nat → Pen → Pen} {tokens more : Nat → List Token}
    (hfirst : WritesBlock well opening first tokens)
    (hrest : WritesBlock alsoWell opening rest more) :
    WritesBlock (well && alsoWell) opening
      (fun column pen => rest column (first column pen)) fun column =>
        tokens column ++ more column := by
  intro out pen hplaced
  obtain ⟨chunk, spaced, hchunk, hreads⟩ := hfirst hplaced
  obtain ⟨later, last, hlater, hmore⟩ :=
    hrest.below (columnOf out) (chunk.reverse ++ out) spaced
  refine ⟨chunk ++ '\n' :: (List.replicate (columnOf out) ' ' ++ later), last,
    ?_, hreads.append hmore⟩
  simp only [hchunk, hlater]
  simp [Pen.line]

theorem writesBlock_item {well : Bool} {item : Json}
    (hitem : WritesNode well item) :
    WritesBlock well .blockSequenceStart
      (fun column pen =>
        writeNode (some column) false
          ((pen.indentTo column).mark ['-'] true false true) item)
      fun column => .blockEntry :: tokensOf column true item := by
  intro out pen hplaced
  have hmark : BehindMark (columnOf out) false true ('-' :: out) :=
    ⟨by rw [columnOf_cons rfl], fun _ => columnOf_cons rfl out, nofun⟩
  obtain ⟨chunk, spaced, hchunk, hreads⟩ := hitem hmark
  refine ⟨'-' :: chunk, spaced, ?_, hreads.marked .entry⟩
  simp only [hplaced]
  rw [Pen.mark_behind (by decide)]
  simpa using hchunk

theorem writesBlock_items {items : List Json} (hnonempty : items ≠ [])
    (hitems : ∀ item ∈ items, WritesNode (fitKeys item) item) :
    WritesBlock (allFitKeys items) .blockSequenceStart
      (fun column pen => writeItems column pen items) fun column =>
        itemTokens column items := by
  induction items with
  | nil => exact absurd rfl hnonempty
  | cons item rest ih =>
      have hfirst := writesBlock_item (hitems item List.mem_cons_self)
      cases rest with
      | nil => simpa [writeItems, itemTokens, allFitKeys] using hfirst
      | cons next others =>
          exact hfirst.cons (ih (List.cons_ne_nil next others) fun item hmem =>
            hitems item (List.mem_cons_of_mem _ hmem))

def writeEntry (key : String) (value : Json) (column : Nat) (pen : Pen) : Pen :=
  let placed := pen.indentTo column
  let keyed :=
    if isSimpleKey key then
      (writeText true (column + 2) key placed).mark [':'] false false false
    else
      let asked := placed.mark ['?'] true false true
      ((writeText false (column + 2) key asked).indentTo column).mark
        [':'] true false true
  writeNode (some column) true keyed value

theorem writesBlock_simple {well : Bool} {key : String} {value : Json}
    (hsimple : isSimpleKey key = true) (hvalue : WritesNode well value) :
    WritesBlock (fitsKey key && well) .blockMappingStart
      (fun column pen => writeEntry key value column pen) fun column =>
        .key :: keyToken key :: .value :: tokensOf column false value := by
  intro out pen hplaced
  have hcolumn : columnOf (':' :: ((keyChars key).reverse ++ out)) =
      columnOf out + (keyChars key).length + 1 := by
    rw [columnOf_cons rfl, columnOf_append fun c hc =>
      (inline_of_keyChars hsimple c (List.mem_reverse.mp hc)).2,
        List.length_reverse]
  have hmark : BehindMark (columnOf out) true false
      (':' :: ((keyChars key).reverse ++ out)) :=
    ⟨by omega, nofun, fun _ => rfl⟩
  obtain ⟨chunk, spaced, hchunk, hreads⟩ := hvalue hmark
  refine ⟨keyChars key ++ ':' :: chunk, spaced, ?_, hreads.keyed hsimple⟩
  unfold writeEntry
  simp only [hplaced, hsimple, if_true, writeText_key hsimple]
  rw [Pen.mark_behind (by decide)]
  simpa using hchunk

theorem writesBlock_asked {well : Bool} {key : String} {value : Json}
    (hsimple : isSimpleKey key = false) (hvalue : WritesNode well value) :
    WritesBlock well .blockMappingStart
      (fun column pen => writeEntry key value column pen) fun column =>
        .key :: textToken (column + 2) key :: .value ::
          tokensOf column true value := by
  intro out pen hplaced
  have hasked : columnOf out + 2 ≤ columnOf (' ' :: '?' :: out) := by
    rw [columnOf_cons rfl, columnOf_cons rfl]
  obtain ⟨later, hlater, hkeyReads⟩ := reads_text hasked key true
  have hfirst : ReadsBlock true .blockMappingStart out ('?' :: ' ' :: later)
      [.key, textToken (columnOf out + 2) key] :=
    (hkeyReads.node (by simp)).marked .key
  have hmark : BehindMark (columnOf out) true true
      (':' :: Pen.line (columnOf out)
        (('?' :: ' ' :: later).reverse ++ out)) :=
    ⟨by rw [columnOf_cons rfl, Pen.columnOf_line],
      fun _ => by rw [columnOf_cons rfl, Pen.columnOf_line], nofun⟩
  obtain ⟨chunk, spaced, hchunk, hreads⟩ := hvalue hmark
  have hsecond : ReadsBlock well .blockMappingStart
      (Pen.line (columnOf out) (('?' :: ' ' :: later).reverse ++ out))
      (':' :: chunk) (.value :: tokensOf (columnOf out) true value) := by
    refine ReadsNode.marked .value ?_
    rwa [Pen.columnOf_line]
  refine ⟨_, spaced, ?_, hfirst.append hsecond⟩
  unfold writeEntry
  simp only [hplaced, hsimple, Bool.false_eq_true, if_false]
  have hask : (Pen.behind out true true).mark ['?'] true false true =
      .behind ('?' :: out) false true := Pen.mark_behind (by decide) _ _ _
  have hcolon :
      (Pen.behind
        (Pen.line (columnOf out) (('?' :: ' ' :: later).reverse ++ out))
          true true).mark [':'] true false true =
        .behind (':' :: Pen.line (columnOf out)
          (('?' :: ' ' :: later).reverse ++ out)) false true :=
    Pen.mark_behind (by decide) _ _ _
  have hout : later.reverse ++ ' ' :: '?' :: out =
      ('?' :: ' ' :: later).reverse ++ out := by
    simp
  rw [hask, writeText_apart, hlater, hout, Pen.indentTo_line, hcolon, hchunk]
  simp [Pen.line]

theorem writesBlock_entry {well : Bool} (key : String) {value : Json}
    (hvalue : WritesNode well value) :
    WritesBlock (fitsKey key && well) .blockMappingStart
      (fun column pen => writeEntry key value column pen) fun column => .key ::
        (if isSimpleKey key then keyToken key
          else textToken (column + 2) key) :: .value ::
          tokensOf column (!isSimpleKey key) value := by
  cases hsimple : isSimpleKey key with
  | true => exact writesBlock_simple hsimple hvalue
  | false =>
      have hkey : fitsKey key = true := by simp [fitsKey, hsimple]
      rw [hkey]
      exact writesBlock_asked hsimple hvalue

theorem writesBlock_entries {entries : List (String × Json)}
    (hnonempty : entries ≠ [])
    (hvalues : ∀ entry ∈ entries, WritesNode (fitKeys entry.2) entry.2) :
    WritesBlock (entriesFitKeys entries) .blockMappingStart
      (fun column pen => writeEntries column pen entries)
      fun column => entryTokens column entries := by
  induction entries with
  | nil => exact absurd rfl hnonempty
  | cons entry rest ih =>
      obtain ⟨key, value⟩ := entry
      have hfirst := writesBlock_entry key (hvalues _ List.mem_cons_self)
      cases rest with
      | nil =>
          simpa [writeEntries, writeEntry, entryTokens, entriesFitKeys]
            using hfirst
      | cons next others =>
          exact hfirst.cons (ih (List.cons_ne_nil next others) fun entry hmem =>
            hvalues entry (List.mem_cons_of_mem _ hmem))

theorem writesNode_array {items : List Json}
    (hitems : ∀ item ∈ items, WritesNode (fitKeys item) item) :
    WritesNode (allFitKeys items) (.array items) := by
  cases items with
  | nil => exact writesNode_pair .sequence (fun _ _ _ => rfl) fun _ _ => rfl
  | cons item rest =>
      have hblock := writesBlock_items (List.cons_ne_nil item rest) hitems
      intro column afterKey compact out hplaced
      have hindent (hfresh : (afterKey && !compact) = true → False) :
          itemIndent (some column) afterKey (.behind out false compact) =
            column + 2 :=
        if_neg (by simpa using hfresh)
      cases compact with
      | true =>
          obtain ⟨chunk, spaced, hchunk, hreads⟩ := hblock.node hplaced
          refine ⟨chunk, spaced, ?_, hreads⟩
          rw [← hchunk]
          exact congrArg (writeItems · _ (item :: rest)) (hindent (by simp))
      | false =>
          obtain ⟨chunk, spaced, hchunk, hreads⟩ :=
            hblock.below column out false
          refine ⟨'\n' :: (List.replicate column ' ' ++ chunk), spaced, ?_,
            hreads.node_level hplaced.ne_nil⟩
          have hlevel : itemIndent (some column) afterKey
              (.behind out false false) = column := by
            rw [hplaced.key rfl]
            rfl
          refine (congrArg (writeItems · _ (item :: rest)) hlevel).trans ?_
          simpa [Pen.line] using hchunk

theorem writesNode_object {entries : List (String × Json)}
    (hvalues : ∀ entry ∈ entries, WritesNode (fitKeys entry.2) entry.2) :
    WritesNode (entriesFitKeys entries) (.object entries) := by
  cases entries with
  | nil => exact writesNode_pair .mapping (fun _ _ _ => rfl) fun _ _ => rfl
  | cons entry rest =>
      have hblock := writesBlock_entries (List.cons_ne_nil entry rest) hvalues
      intro column afterKey compact out hplaced
      exact hblock.node hplaced

theorem writesNode_atom {value : Json} {chars : List Char} {tag : Tag}
    {scalar : Scalar} (hatom : IsAtom chars tag scalar)
    (hwritten : ∀ (column : Nat) (afterKey : Bool) (pen : Pen),
      writeNode (some column) afterKey pen value =
        writePlain true (column + 2) chars pen)
    (htokens : ∀ (column : Nat) (compact : Bool),
      tokensOf column compact value = [.scalar (String.ofList chars) true]) :
      WritesNode true value :=
  writesNode_plain hatom.plain hatom.ne_nil hwritten htokens

theorem writesNode (value : Json) (hfits : value.fits = true) :
    WritesNode (fitKeys value) value := by
  induction value using Json.byParts with
  | null => exact writesNode_atom isAtom_null (fun _ _ _ => rfl) fun _ _ => rfl
  | bool value =>
      refine writesNode_atom (isAtom_bool value) (fun _ _ _ => rfl)
        fun _ _ => ?_
      rw [String.ofList_toList]
      rfl
  | int value =>
      refine writesNode_atom (isAtom_int (of_decide_eq_true hfits))
        (fun _ _ _ => rfl) fun _ _ => ?_
      rw [String.ofList_toList]
      rfl
  | float value =>
      exact writesNode_atom (isAtom_float value) (fun _ _ _ => rfl)
        fun _ _ => rfl
  | text value => exact writesNode_text value
  | array items ih =>
      exact writesNode_array fun item hmem =>
        ih item hmem (Json.fitAll_iff.mp hfits item hmem)
  | object entries ih =>
      exact writesNode_object fun entry hmem =>
        ih entry hmem (Json.fieldsFit_iff.mp hfits entry hmem)

end Fragments.Yaml
