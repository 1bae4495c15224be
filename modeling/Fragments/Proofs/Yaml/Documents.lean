import Fragments.Proofs.Yaml.Characters
import Fragments.Proofs.Yaml.Endings
import Fragments.Proofs.Yaml.Trees
import Fragments.Proofs.Yaml.Values

namespace Fragments.Yaml

namespace Scanner

theorem rests_start {chars : List Char} (hstarts : Starts chars)
    (hmark : ∀ c ∈ chars.head?, Tame c) :
    (start chars).rests = .ok (start chars) := by
  have horder : (start chars).skipOrderMark = start chars := by
    refine if_neg ?_
    cases chars with
    | nil => decide
    | cons c rest =>
        have hother : c.toNat ≠ 0xFEFF := (hmark c rfl).2
        simpa [start, Cursor.ofChars, Cursor.peek] using hother
  have hcursor :
      (start chars).cursor = .behind [] (List.replicate 0 ' ' ++ chars) := rfl
  have hnokeys : ∀ key ∈ (start chars).keys,
      key.2.required = false ∧ key.2.line < (start chars).cursor.line := by
    simp [start]
  rw [rests, horder, skipToToken_spaces hcursor hstarts]
  exact dropStale_of_line hnokeys

theorem settle_last (kept : List Token) (out : List Char) (tokens : List Token)
    (indent : Nat) (fuel : Nat) (hcolumn : columnOf out = indent) :
    settle kept fuel (behind out [] tokens indent [-1] true) =
      ((.streamEnd :: .blockEnd :: tokens).reverse, none) := by
  have hunwind : (behind out [] tokens indent [-1] true).unwind (columnOf out) =
      behind out [] tokens indent [-1] true := unwind_of_le (by simp [hcolumn])
  have hclosed : (behind out [] tokens indent [-1] true).unwind (-1) =
      behind out [] (.blockEnd :: tokens) (-1) [] true := by
    show unwind.go (-1) [-1] (behind out [] tokens indent [-1] true) = _
    exact if_pos (show (-1 : Int) < indent by omega)
  rw [settle, behind_cursor, Cursor.behind_column, hunwind]
  simp only [behind_cursor, Cursor.behind_rest, List.isEmpty_nil, if_true,
    endBlocks, hclosed]
  rfl

section

variable {chars : List Char} (hstarts : Starts chars)
  (hmark : ∀ c ∈ chars.head?, Tame c)
include hstarts hmark

theorem tokenize_of_leads {out : List Char} {tokens : List Token}
    (hleads : Leads (start chars)
      (behind out [] tokens (columnOf out) [-1] true)) :
    tokenize chars = ((.streamEnd :: .blockEnd :: tokens).reverse, none) := by
  obtain ⟨count, hcount, hsettle⟩ := hleads
  have hlength : count ≤ chars.length := hcount
  rw [tokenize, scanAll_of_rests
    (rests_start hstarts hmark), ← Nat.sub_add_cancel hlength]
  obtain ⟨left, hsettle⟩ := hsettle (chars.length - count) (start chars).settled
  rw [hsettle]
  exact settle_last left out tokens (columnOf out) _ rfl

theorem tokenize_of_halts (hhalts : Halts (start chars)) :
    (tokenize chars).2 = some .malformed := by
  obtain ⟨count, hcount, hsettle⟩ := hhalts
  have hlength : count ≤ chars.length := hcount
  rw [tokenize, scanAll_of_rests
    (rests_start hstarts hmark), ← Nat.sub_add_cancel hlength, hsettle]

end

end Scanner

section

variable {entries : List (String × Json)}

theorem goes_document (hnonempty : entries ≠ [])
    (hfits : Json.fieldsFit entries = true) :
    Starts (document (.object entries)).toList ∧ ∃ out, columnOf out = 0 ∧
      Scanner.Goes (entriesFitKeys entries)
      (.start (document (.object entries)).toList)
        (.behind out [] (.blockMappingStart :: entryTokens 0 entries).reverse
          (columnOf out) [-1] true) := by
  have hblock := writesBlock_entries hnonempty fun entry hmem =>
    writesNode entry.2 (Json.fieldsFit_iff.mp hfits entry hmem)
  have hplaced : Pen.start.indentTo (columnOf []) = .behind [] true true :=
    Pen.indentTo_self
  obtain ⟨chunk, spaced, hchunk, hreads⟩ := hblock hplaced
  have hwritten : writeNode none false Pen.start (.object entries) =
      .behind (chunk.reverse ++ []) spaced false := by
    rw [← hchunk]
    cases entries with
    | nil => exact absurd rfl hnonempty
    | cons entry rest => rfl
  have htext : (document (.object entries)).toList = chunk ++ ['\n'] := by
    rw [document, String.toList_ofList, hwritten, List.append_nil]
    show ((Pen.behind chunk.reverse spaced false).indentTo 0).out.reverse = _
    rw [Pen.indentTo_line]
    simp [Pen.line]
  have hend : Follows 0 [] := ⟨by simp [Starts], by simp [Scan.Unmarked]⟩
  have hgoes := hreads.goes (Nat.le_refl 0) hend [] []
    (show (-1 : Int) ≤ (0 : Nat) by decide)
  have htokens :
      ((Token.blockMappingStart :: entryTokens 0 entries).reverse :
        List Token) =
      (entryTokens 0 entries).reverse ++
      Scanner.openedTokens 0 .blockMappingStart (-1) [] :=
    List.reverse_cons
  rw [htext, htokens]
  exact ⟨(hreads.follows []).starts, _, Pen.columnOf_line 0, hgoes⟩

theorem tame_of_document (hfits : Json.fieldsFit entries = true) :
    ∀ c ∈ (document (.object entries)).toList.head?, Tame c := fun c hc =>
  have hprinted : Printed c :=
    printed_of_mem_document
      (show (Json.object entries).fits = true from hfits) c
        (List.mem_of_mem_head? hc)
  hprinted.1

theorem tokenize_document (hnonempty : entries ≠ [])
    (hfits : Json.fieldsFit entries = true)
    (hkeys : entriesFitKeys entries = true) :
    tokenize (document (.object entries)).toList =
      (.blockMappingStart :: entryTokens 0 entries ++ [.blockEnd, .streamEnd],
        none) := by
  obtain ⟨hstarts, out, -, hgoes⟩ := goes_document hnonempty hfits
  rw [hkeys] at hgoes
  rw [Scanner.tokenize_of_leads hstarts (tame_of_document hfits) hgoes]
  simp

theorem ofTokens_entryTokens (hfits : Json.fieldsFit entries = true)
    (hheight : (Json.object entries).height ≤ nestingLimit) (stop : Trouble) :
    Tree.ofTokens (.blockMappingStart :: entryTokens 0 entries ++
      [.blockEnd, .streamEnd])
        stop =
      .ok (some (treeOf (.object (heardEntries 0 entries)))) := by
  let setting : Tree.Setting := ⟨Tree.standardHandles, stop, nestingLimit⟩
  have hinner : ∀ entry ∈ entries, entry.2.height ≤ setting.inner.levels :=
    Json.heightOfFields_le_iff.mp (Nat.le_sub_one_of_lt hheight)
  have hentries : Tree.readBlockEntries setting.inner
      (4 * (entryTokens 0 entries).length + 15)
      (entryTokens 0 entries ++ [.blockEnd, .streamEnd]) = _ :=
    readBlockEntries_entryTokens (fun entry hmem =>
      readsTree entry.2 (Json.fieldsFit_iff.mp hfits entry hmem))
      hinner (by omega)
  have hnode := Tree.readNode_blockMapping (show 0 < nestingLimit by decide)
    false hentries
  have hfuel : 4 * (Token.blockMappingStart :: entryTokens 0 entries ++
      [Token.blockEnd, Token.streamEnd]).length + 4 =
        4 * (entryTokens 0 entries).length + 16 := by
    simp
    omega
  unfold Tree.ofTokens
  rw [hfuel]
  exact congrArg (· >>= _) hnode

end

mutual

theorem fits_heard : ∀ (value : Json) (column : Nat) (compact : Bool),
    (heard column compact value).fits = value.fits
  | .null, _, _ => rfl
  | .bool _, _, _ => rfl
  | .int _, _, _ => rfl
  | .float _, _, _ => rfl
  | .text _, _, _ => rfl
  | .array items, _, _ => fitAll_heardItems items _
  | .object entries, _, _ => fieldsFit_heardEntries entries _

theorem fitAll_heardItems : ∀ (items : List Json) (column : Nat),
    Json.fitAll (heardItems column items) = Json.fitAll items
  | [], _ => rfl
  | item :: rest, column =>
      congrArg₂ (· && ·) (fits_heard item column true)
        (fitAll_heardItems rest column)

theorem fieldsFit_heardEntries :
    ∀ (entries : List (String × Json)) (column : Nat),
      Json.fieldsFit (heardEntries column entries) = Json.fieldsFit entries
  | [], _ => rfl
  | (key, value) :: rest, column =>
      congrArg₂ (· && ·) (fits_heard value column (!isSimpleKey key))
        (fieldsFit_heardEntries rest column)

end

mutual

theorem height_heard : ∀ (value : Json) (column : Nat) (compact : Bool),
    (heard column compact value).height = value.height
  | .null, _, _ | .bool _, _, _ | .int _, _, _ | .float _, _, _ | .text _,
      _, _ => rfl
  | .array items, _, _ => congrArg (· + 1) (heightOfItems_heardItems items _)
  | .object entries, _, _ =>
      congrArg (· + 1) (heightOfFields_heardEntries entries _)

theorem heightOfItems_heardItems : ∀ (items : List Json) (column : Nat),
    Json.heightOfItems (heardItems column items) = Json.heightOfItems items
  | [], _ => rfl
  | item :: rest, column =>
      congrArg₂ max (height_heard item column true)
        (heightOfItems_heardItems rest column)

theorem heightOfFields_heardEntries :
    ∀ (entries : List (String × Json)) (column : Nat),
      Json.heightOfFields (heardEntries column entries) =
        Json.heightOfFields entries
  | [], _ => rfl
  | (key, value) :: rest, column =>
      congrArg₂ max (height_heard value column (!isSimpleKey key))
        (heightOfFields_heardEntries rest column)

end

section

variable {entries : List (String × Json)} (hnonempty : entries ≠ [])
  (hfits : Json.fieldsFit entries = true)
include hnonempty hfits

theorem parse_document (hheight : (Json.object entries).height ≤ nestingLimit)
    (hkeys : entriesFitKeys entries = true) :
    parse (document (.object entries)).toList =
      .ok (some (treeOf (.object (heardEntries 0 entries)))) := by
  rw [parse, tokenize_document hnonempty hfits hkeys]
  exact ofTokens_entryTokens hfits hheight _

/-- The document of a mapping is read as what is heard of it, with repeated keys
merged, if all keys can be found again. -/
theorem read_document (hheight : (Json.object entries).height ≤ nestingLimit)
    (hkeys : entriesFitKeys entries = true) :
    read (document (.object entries)).toList =
      .ok (Json.object (heardEntries 0 entries)).merged.toValue := by
  have hallowed : (document (.object entries)).toList.all isAllowed = true :=
    List.all_eq_true.mpr fun c hc =>
      (printed_of_mem_document
        (show (Json.object entries).fits = true from hfits) c hc).2
  obtain ⟨graph, hgraph, hspans⟩ :=
    Graph.ofTree_treeOf (.object (heardEntries 0 entries))
  have hheard : (Json.object (heardEntries 0 entries)).fits = true := by
    rw [Json.fits, fieldsFit_heardEntries, hfits]
  have hshallow : (Json.object (heardEntries 0 entries)).merged.toValue.height ≤
      nestingLimit := by
    rw [Json.height_toValue]
    refine (Json.height_merged_le _).trans ?_
    rwa [Json.height, heightOfFields_heardEntries]
  rw [read, hallowed, parse_document hnonempty hfits hheight hkeys]
  show Graph.ofTree _ >>= _ = _
  rw [hgraph]
  show build _ _ >>= _ = _
  rw [build_treeOf hheard hspans]
  exact if_neg (Nat.not_lt.mpr hshallow)

theorem read_document_ne_ok (hkeys : entriesFitKeys entries = false)
    (value : Value) :
    read (document (.object entries)).toList ≠ .ok value := by
  obtain ⟨hstarts, out, -, hgoes⟩ := goes_document hnonempty hfits
  rw [hkeys] at hgoes
  exact read_ne_ok
    (Scanner.tokenize_of_halts hstarts (tame_of_document hfits) hgoes) value

end

end Fragments.Yaml
