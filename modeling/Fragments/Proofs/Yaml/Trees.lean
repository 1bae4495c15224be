import Fragments.Proofs.Json.RoundTrip
import Fragments.Proofs.Yaml.Layout
import Fragments.Yaml.Tree

namespace Fragments.Yaml

def heardKey (column : Nat) (key : String) : String :=
  if isSimpleKey key then key else heardText (column + 2) key

mutual

def heard (column : Nat) (compact : Bool) : Json → Json
  | .text value => .text (heardText (column + 2) value)
  | .array items =>
      .array (heardItems (if compact then column + 2 else column) items)
  | .object entries => .object (heardEntries (column + 2) entries)
  | value => value

def heardItems (column : Nat) : List Json → List Json
  | [] => []
  | item :: rest => heard column true item :: heardItems column rest

def heardEntries (column : Nat) : List (String × Json) → List (String × Json)
  | [] => []
  | (key, value) :: rest =>
      (heardKey column key, heard column (!isSimpleKey key) value) ::
        heardEntries column rest

end

mutual

def treeOf : Json → Tree
  | .null => .scalar none .null "null"
  | .bool value => .scalar none .bool (if value then "true" else "false")
  | .int value => .scalar none .int (toString value)
  | .float value => .scalar none .float (String.ofList (floatText value))
  | .text value => .scalar none .str value
  | .array items => .sequence none .seq (itemTrees items)
  | .object entries => .mapping none .map (entryTrees entries)

def itemTrees : List Json → List Tree
  | [] => []
  | item :: rest => treeOf item :: itemTrees rest

def entryTrees : List (String × Json) → List (Tree × Tree)
  | [] => []
  | (key, value) :: rest =>
      (.scalar none .str key, treeOf value) :: entryTrees rest

end

namespace Tree

variable {setting : Setting} {fuel : Nat}

theorem readNode_scalar (block level : Bool) (hfuel : 0 < fuel) (text : String)
    (plain : Bool) (rest : List Token) :
    readNode setting block level fuel (.scalar text plain :: rest) =
      .ok (.scalar none (scalarTag none text plain) text, rest) := by
  obtain ⟨less, rfl⟩ :=
    Nat.exists_eq_succ_of_ne_zero (Nat.pos_iff_ne_zero.mp hfuel)
  rfl

section

variable (hlevels : 0 < setting.levels)
include hlevels

theorem readNode_sequence (block level : Bool) (hfuel : 1 < fuel)
    (rest : List Token) :
    readNode setting block level fuel
      (.flowSequenceStart :: .flowSequenceEnd :: rest) =
      .ok (.sequence none .seq [], rest) := by
  obtain ⟨less, rfl⟩ := Nat.exists_eq_add_of_le' hfuel
  exact below_of_lt hlevels _ _

theorem readNode_mapping (block level : Bool) (hfuel : 1 < fuel)
    (rest : List Token) :
    readNode setting block level fuel
      (.flowMappingStart :: .flowMappingEnd :: rest) =
      .ok (.mapping none .map [], rest) := by
  obtain ⟨less, rfl⟩ := Nat.exists_eq_add_of_le' hfuel
  exact below_of_lt hlevels _ _

theorem readNode_blockSequence (level : Bool) {items : List Tree}
    {tokens rest : List Token}
    (hitems : readBlockItems setting.inner fuel tokens = .ok (items, rest)) :
    readNode setting true level (fuel + 1) (.blockSequenceStart :: tokens) =
      .ok (.sequence none .seq items, rest) := by
  have hstep : readNode setting true level (fuel + 1)
      (.blockSequenceStart :: tokens) =
      below setting.levels tooNested
        (readBlockItems setting.inner fuel tokens >>= fun found =>
          .ok (.sequence none .seq found.1, found.2)) := by
    cases level <;> rfl
  rw [hstep, below_of_lt hlevels, hitems]
  rfl

theorem readNode_blockMapping (level : Bool) {entries : List (Tree × Tree)}
    {tokens rest : List Token}
    (hentries : readBlockEntries setting.inner fuel tokens =
      .ok (entries, rest)) :
    readNode setting true level (fuel + 1) (.blockMappingStart :: tokens) =
      .ok (.mapping none .map entries, rest) := by
  have hstep : readNode setting true level (fuel + 1)
      (.blockMappingStart :: tokens) =
      below setting.levels tooNested
        (readBlockEntries setting.inner fuel tokens >>= fun found =>
          .ok (.mapping none .map found.1, found.2)) := by
    cases level <;> rfl
  rw [hstep, below_of_lt hlevels, hentries]
  rfl

theorem readNode_level {items : List Tree} {tokens rest : List Token}
    (hitems : readLevelItems setting.inner fuel (.blockEntry :: tokens) =
      .ok (items, rest)) :
    readNode setting true true (fuel + 1) (.blockEntry :: tokens) =
      .ok (.sequence none .seq items, rest) := by
  have hstep : readNode setting true true (fuel + 1) (.blockEntry :: tokens) =
      below setting.levels tooNested
        (readLevelItems setting.inner fuel (.blockEntry :: tokens) >>=
          fun found =>
            .ok (.sequence none .seq found.1, found.2)) := rfl
  rw [hstep, below_of_lt hlevels, hitems]
  rfl

end

theorem readOptional_node {block level : Bool} {ends tokens rest : List Token}
    {tree : Tree} (hstarts : leavesOut ends tokens = false)
    (hnode : readNode setting block level fuel tokens = .ok (tree, rest))
    (hsome : tokens ≠ []) :
    readOptional setting block level ends (fuel + 1) tokens =
      .ok (tree, rest) := by
  have hempty : tokens.isEmpty = false := by
    cases tokens with
    | nil => exact absurd rfl hsome
    | cons => rfl
  rw [readOptional, hstarts, hempty]
  exact hnode

theorem readBlockItems_cons {tokens after last : List Token} {item : Tree}
    {items : List Tree}
    (hitem : readOptional setting true false [.blockEntry, .blockEnd] fuel
      tokens = .ok (item, after))
    (hitems : readBlockItems setting fuel after = .ok (items, last)) :
    readBlockItems setting (fuel + 1) (.blockEntry :: tokens) =
      .ok (item :: items, last) := by
  show readOptional setting true false [.blockEntry, .blockEnd] fuel tokens >>=
      _ = _
  rw [hitem]
  show readBlockItems setting fuel after >>= _ = _
  rw [hitems]
  rfl

theorem readLevelItems_cons {tokens after last : List Token} {item : Tree}
    {items : List Tree}
    (hitem : readOptional setting true false
      [.blockEntry, .key, .value, .blockEnd] fuel tokens =
      .ok (item, after))
    (hitems : readLevelItems setting fuel after = .ok (items, last)) :
    readLevelItems setting (fuel + 1) (.blockEntry :: tokens) =
      .ok (item :: items, last) := by
  show readOptional setting true false [.blockEntry, .key, .value, .blockEnd]
      fuel tokens >>= _ = _
  rw [hitem]
  show readLevelItems setting fuel after >>= _ = _
  rw [hitems]
  rfl

theorem readBlockEntries_cons {tokens afterKey afterValue last : List Token}
    {key value : Tree} {entries : List (Tree × Tree)}
    (hkey : readOptional setting true true [.key, .value, .blockEnd]
      fuel tokens =
      .ok (key, afterKey))
    (hvalue : readEntryValue setting true [.key, .value, .blockEnd]
      fuel afterKey =
      .ok (value, afterValue))
    (hentries : readBlockEntries setting fuel afterValue =
      .ok (entries, last)) :
    readBlockEntries setting (fuel + 1) (.key :: tokens) =
      .ok ((key, value) :: entries, last) := by
  show readOptional setting true true [.key, .value, .blockEnd] fuel tokens >>=
      _ = _
  rw [hkey]
  show readEntryValue setting true [.key, .value, .blockEnd] fuel afterKey >>=
      _ = _
  rw [hvalue]
  show readBlockEntries setting fuel afterValue >>= _ = _
  rw [hentries]
  rfl

end Tree

theorem scalarTag_of_style {key : Bool} {text heard : String}
    (hheard : Style.ofText key text = .plain → heard = text) :
    Tree.scalarTag none heard (Style.ofText key text == .plain) = .str := by
  cases hstyle : Style.ofText key text with
  | plain =>
      rw [hheard hstyle]
      exact (Style.ofText_eq_plain hstyle).1
  | single => rfl
  | double => rfl

theorem scalarTag_heardText (indent : Nat) (text : String) :
    Tree.scalarTag none (heardText indent text)
    (Style.ofText false text == .plain) = .str :=
  scalarTag_of_style fun hstyle => by rw [heardText, hstyle]

theorem scalarTag_key (key : String) :
    Tree.scalarTag none key (Style.ofText true key == .plain) = .str :=
  scalarTag_of_style fun _ => rfl

open Fragments.Yaml.Tree

section

variable {setting : Setting} {column : Nat} {rest : List Token}

/-- What stands behind a list at the column of its key: not an item, which would
belong to the list. -/
structure EndsItems (rest : List Token) : Prop where
  ne_nil : rest ≠ []
  head : ∀ token ∈ rest.head?, token ≠ .blockEntry

/-- The tokens of a value are read as its tree, unless it is nested too deep. A
list at the column of its key needs a place where such a list may stand. -/
def ReadsTree (value : Json) : Prop :=
  ∀ ⦃setting : Setting⦄ ⦃column fuel : Nat⦄ ⦃compact level : Bool⦄
    ⦃rest : List Token⦄, value.height ≤ setting.levels →
    (compact = false → level = true ∧ EndsItems rest) →
    4 * (tokensOf column compact value).length ≤ fuel + 1 →
    readNode setting true level fuel (tokensOf column compact value ++ rest) =
      .ok (treeOf (heard column compact value), rest)

theorem readsTree_scalar {value : Json} {tag : Tag} {text : Nat → String}
    {plain : Bool} (htokens : ∀ (column : Nat) (compact : Bool),
      tokensOf column compact value = [.scalar (text column) plain])
    (htree : ∀ (column : Nat) (compact : Bool),
      treeOf (heard column compact value) = .scalar none tag (text column))
    (htag : ∀ column, scalarTag none (text column) plain = tag) :
    ReadsTree value := by
  intro setting column fuel compact level rest _ _ hfuel
  rw [htokens] at hfuel ⊢
  have hsome : 0 < fuel := by
    simp only [List.length_singleton] at hfuel
    omega
  rw [htree, ← htag column]
  exact readNode_scalar true level hsome _ _ rest

theorem exists_tokensOf (value : Json) (column : Nat) (compact : Bool) :
    ∃ token more, tokensOf column compact value = token :: more ∧
      token ∉ [Token.key, .value, .blockEnd] ∧
        (compact = true → token ≠ .blockEntry) := by
  cases value with
  | text value => exact ⟨.scalar _ _, _, rfl, by simp, by simp⟩
  | array items =>
      cases items with
      | nil => exact ⟨_, _, rfl, by simp, by simp⟩
      | cons item items =>
          cases compact with
          | true => exact ⟨_, _, rfl, by simp, by simp⟩
          | false => exact ⟨_, _, rfl, by simp, by simp⟩
  | object entries =>
      cases entries with
      | nil => exact ⟨_, _, rfl, by simp, by simp⟩
      | cons entry entries => exact ⟨_, _, rfl, by simp, by simp⟩
  | _ => exact ⟨_, _, rfl, by simp, by simp⟩

theorem ReadsTree.optional {value : Json} (hvalue : ReadsTree value)
    (hheight : value.height ≤ setting.levels) {fuel : Nat}
    {compact level : Bool} {ends : List Token}
    (hends : ∀ token ∈ ends, token ∈ [Token.key, .value, .blockEnd] ∨
      token = .blockEntry ∧ compact = true)
    (hplaced : compact = false → level = true ∧ EndsItems rest)
    (hfuel : 4 * (tokensOf column compact value).length ≤ fuel) :
    readOptional setting true level ends fuel
      (tokensOf column compact value ++ rest) =
      .ok (treeOf (heard column compact value), rest) := by
  obtain ⟨token, more, htokens, hother, hentry⟩ :=
    exists_tokensOf value column compact
  obtain ⟨less, rfl⟩ : ∃ less, fuel = less + 1 :=
    Nat.exists_eq_succ_of_ne_zero
      (by rw [htokens, List.length_cons] at hfuel; omega)
  refine readOptional_node ?_ (hvalue hheight hplaced hfuel) (by simp [htokens])
  rw [htokens]
  show ends.contains token = false
  rw [List.contains_eq_mem, decide_eq_false_iff_not]
  intro hmem
  rcases hends token hmem with hthere | ⟨rfl, hcompact⟩
  · exact hother hthere
  · exact hentry hcompact rfl

theorem ReadsTree.item {value : Json} (hvalue : ReadsTree value)
    (hheight : value.height ≤ setting.levels) {fuel : Nat} {ends : List Token}
    (hends : ∀ token ∈ ends,
      token ∈ [Token.key, .value, .blockEnd, .blockEntry])
    (hfuel : 4 * (tokensOf column true value).length ≤ fuel) :
    readOptional setting true false ends fuel
      (tokensOf column true value ++ rest) =
      .ok (treeOf (heard column true value), rest) :=
  hvalue.optional hheight
    (fun token hmem => by simpa [or_assoc] using hends token hmem)
    (fun hcompact => by cases hcompact) hfuel

theorem readBlockItems_itemTokens {items : List Json}
    (hitems : ∀ item ∈ items, ReadsTree item)
    (hheight : ∀ item ∈ items, item.height ≤ setting.levels) {fuel : Nat}
    (hfuel : 4 * (itemTokens column items).length < fuel) :
    readBlockItems setting fuel (itemTokens column items ++ .blockEnd :: rest) =
      .ok (itemTrees (heardItems column items), rest) := by
  induction items generalizing fuel with
  | nil =>
      obtain ⟨less, rfl⟩ :=
        Nat.exists_eq_succ_of_ne_zero (Nat.ne_zero_of_lt hfuel)
      rfl
  | cons item more ih =>
      obtain ⟨less, rfl⟩ :=
        Nat.exists_eq_succ_of_ne_zero (Nat.ne_zero_of_lt hfuel)
      simp only [itemTokens, List.cons_append, List.length_cons,
        List.length_append] at hfuel
      obtain ⟨hitem, hitems⟩ := List.forall_mem_cons.mp hitems
      obtain ⟨hfirst, hheight⟩ := List.forall_mem_cons.mp hheight
      have hmore := ih hitems hheight
        (show 4 * (itemTokens column more).length < less by omega)
      rw [itemTokens, List.cons_append, List.cons_append, List.append_assoc]
      exact readBlockItems_cons (hitem.item hfirst (by simp) (by omega)) hmore

theorem readLevelItems_itemTokens {items : List Json}
    (hitems : ∀ item ∈ items, ReadsTree item)
    (hheight : ∀ item ∈ items, item.height ≤ setting.levels)
    (hends : EndsItems rest) {fuel : Nat} (hsome : 0 < fuel)
    (hfuel : 4 * (itemTokens column items).length ≤ fuel + 2) :
    readLevelItems setting fuel (itemTokens column items ++ rest) =
      .ok (itemTrees (heardItems column items), rest) := by
  induction items generalizing fuel with
  | nil =>
      obtain ⟨less, rfl⟩ :=
        Nat.exists_eq_succ_of_ne_zero (Nat.ne_zero_of_lt hsome)
      obtain ⟨token, more, rfl⟩ := List.exists_cons_of_ne_nil hends.ne_nil
      have hother := hends.head token rfl
      unfold readLevelItems
      cases token with
      | blockEntry => exact absurd rfl hother
      | _ => rfl
  | cons item more ih =>
      obtain ⟨less, rfl⟩ :=
        Nat.exists_eq_succ_of_ne_zero (Nat.ne_zero_of_lt hsome)
      have hlength : 0 < (tokensOf column true item).length := by
        obtain ⟨token, others, htokens, -⟩ := exists_tokensOf item column true
        simp [htokens]
      simp only [itemTokens, List.cons_append, List.length_cons,
        List.length_append] at hfuel
      obtain ⟨hitem, hitems⟩ := List.forall_mem_cons.mp hitems
      obtain ⟨hfirst, hheight⟩ := List.forall_mem_cons.mp hheight
      have hmore := ih hitems hheight
        (show 0 < less by omega) (by omega)
      rw [itemTokens, List.cons_append, List.cons_append, List.append_assoc]
      exact readLevelItems_cons (hitem.item hfirst (by simp) (by omega)) hmore

theorem readOptional_key (key : String) {fuel : Nat} (hfuel : 1 < fuel) :
    readOptional setting true true [.key, .value, .blockEnd] fuel
        ((if isSimpleKey key then keyToken key
          else textToken (column + 2) key) :: rest) =
      .ok (.scalar none .str (heardKey column key), rest) := by
  obtain ⟨less, rfl⟩ := Nat.exists_eq_add_of_le' hfuel
  refine readOptional_node ?_ ?_ (List.cons_ne_nil _ _)
  · cases isSimpleKey key <;> rfl
  · rw [heardKey]
    cases isSimpleKey key with
    | true =>
        rw [← scalarTag_key key]
        exact readNode_scalar true true (Nat.succ_pos less) _ _ rest
    | false =>
        rw [← scalarTag_heardText (column + 2) key]
        exact readNode_scalar true true (Nat.succ_pos less) _ _ rest

theorem endsItems_entryTokens (entries : List (String × Json)) :
    EndsItems (entryTokens column entries ++ .blockEnd :: rest) := by
  cases entries with
  | nil => exact ⟨by simp, by simp [entryTokens]⟩
  | cons entry more => exact ⟨by simp, by simp [entryTokens]⟩

theorem readBlockEntries_entryTokens {entries : List (String × Json)}
    (hvalues : ∀ entry ∈ entries, ReadsTree entry.2)
    (hheight : ∀ entry ∈ entries, entry.2.height ≤ setting.levels) {fuel : Nat}
    (hfuel : 4 * (entryTokens column entries).length < fuel) :
    readBlockEntries setting fuel
      (entryTokens column entries ++ .blockEnd :: rest) =
      .ok (entryTrees (heardEntries column entries), rest) := by
  induction entries generalizing fuel with
  | nil =>
      obtain ⟨less, rfl⟩ :=
        Nat.exists_eq_succ_of_ne_zero (Nat.ne_zero_of_lt hfuel)
      rfl
  | cons entry more ih =>
      obtain ⟨key, value⟩ := entry
      simp only [entryTokens, List.cons_append, List.length_cons,
        List.length_append] at hfuel
      obtain ⟨less, rfl⟩ : ∃ less, fuel = less + 2 :=
        Nat.exists_eq_add_of_le' (by omega)
      obtain ⟨hown, hvalues⟩ := List.forall_mem_cons.mp hvalues
      obtain ⟨hfirst, hheight⟩ := List.forall_mem_cons.mp hheight
      have hmore := ih hvalues hheight
        (show 4 * (entryTokens column more).length < less + 1 by omega)
      have hvalue : readEntryValue setting true
          [.key, .value, .blockEnd] (less + 1)
          (.value :: (tokensOf column (!isSimpleKey key) value ++
            (entryTokens column more ++ .blockEnd :: rest))) = _ :=
        hown.optional hfirst (fun token hmem => .inl hmem)
          (fun _ => ⟨rfl, endsItems_entryTokens more⟩)
          (show 4 * (tokensOf column (!isSimpleKey key) value).length ≤
            less by omega)
      simp only [entryTokens, List.cons_append, List.append_assoc]
      exact readBlockEntries_cons (readOptional_key key (by omega)) hvalue hmore

theorem readsTree_array {items : List Json}
    (hitems : ∀ item ∈ items, ReadsTree item) :
    ReadsTree (.array items) := by
  intro setting column fuel compact level rest hheight hplaced hfuel
  have hlevels : 0 < setting.levels :=
    Nat.lt_of_lt_of_le (Nat.succ_pos _) hheight
  have hinner : ∀ item ∈ items, item.height ≤ setting.inner.levels :=
    Json.heightOfItems_le_iff.mp (Nat.le_sub_one_of_lt hheight)
  cases items with
  | nil =>
      have hfuel : 4 * 2 ≤ fuel + 1 := hfuel
      exact readNode_sequence hlevels true level (by omega) rest
  | cons item more =>
      cases compact with
      | true =>
          simp only [tokensOf, if_true, List.cons_append, List.length_cons,
            List.length_append] at hfuel
          obtain ⟨less, rfl⟩ : ∃ less, fuel = less + 1 :=
            Nat.exists_eq_add_of_le' (by omega)
          have hread : readBlockItems setting.inner less
              (itemTokens (column + 2) (item :: more) ++ .blockEnd :: rest) =
                _ :=
            readBlockItems_itemTokens hitems hinner (by omega)
          simp only [tokensOf, if_true, List.cons_append, List.append_assoc,
            List.nil_append]
          exact readNode_blockSequence hlevels level hread
      | false =>
          obtain ⟨rfl, hends⟩ := hplaced rfl
          have htokens : tokensOf column false (.array (item :: more)) =
              itemTokens column (item :: more) := rfl
          have hitem : 1 < (itemTokens column (item :: more)).length := by
            obtain ⟨token, others, hsome, -⟩ := exists_tokensOf item column true
            simp [itemTokens, hsome]
          rw [htokens] at hfuel ⊢
          obtain ⟨less, rfl⟩ : ∃ less, fuel = less + 1 :=
            Nat.exists_eq_add_of_le' (by omega)
          exact readNode_level hlevels
            (readLevelItems_itemTokens hitems hinner hends (by omega)
              (by omega))

theorem readsTree_object {entries : List (String × Json)}
    (hvalues : ∀ entry ∈ entries, ReadsTree entry.2) :
    ReadsTree (.object entries) := by
  intro setting column fuel compact level rest hheight hplaced hfuel
  have hlevels : 0 < setting.levels :=
    Nat.lt_of_lt_of_le (Nat.succ_pos _) hheight
  have hinner : ∀ entry ∈ entries, entry.2.height ≤ setting.inner.levels :=
    Json.heightOfFields_le_iff.mp (Nat.le_sub_one_of_lt hheight)
  cases entries with
  | nil =>
      have hfuel : 4 * 2 ≤ fuel + 1 := hfuel
      exact readNode_mapping hlevels true level (by omega) rest
  | cons entry more =>
      simp only [tokensOf, List.cons_append, List.length_cons,
        List.length_append] at hfuel
      obtain ⟨less, rfl⟩ : ∃ less, fuel = less + 1 :=
        Nat.exists_eq_add_of_le' (by omega)
      have hread : readBlockEntries setting.inner less
          (entryTokens (column + 2) (entry :: more) ++ .blockEnd :: rest) = _ :=
        readBlockEntries_entryTokens hvalues hinner (by omega)
      simp only [tokensOf, List.cons_append, List.append_assoc, List.nil_append]
      exact readNode_blockMapping hlevels level hread

theorem readsTree_text (value : String) : ReadsTree (.text value) :=
  readsTree_scalar (fun _ _ => rfl) (fun _ _ => rfl) fun column =>
    scalarTag_heardText (column + 2) value

theorem readsTree_atom {value : Json} {chars : List Char} {tag : Tag}
    {scalar : Scalar} (hatom : IsAtom chars tag scalar)
    (htokens : ∀ (column : Nat) (compact : Bool),
      tokensOf column compact value = [.scalar (String.ofList chars) true])
    (htree : ∀ (column : Nat) (compact : Bool),
      treeOf (heard column compact value) =
        .scalar none tag (String.ofList chars)) :
    ReadsTree value :=
  readsTree_scalar htokens htree fun _ => hatom.tag_eq

theorem readsTree (value : Json) (hfits : value.fits = true) :
    ReadsTree value := by
  induction value using Json.byParts with
  | null => exact readsTree_atom isAtom_null (fun _ _ => rfl) fun _ _ => rfl
  | bool value =>
      refine readsTree_atom (isAtom_bool value) (fun _ _ => ?_) fun _ _ => ?_
      · rw [String.ofList_toList]
        rfl
      · rw [String.ofList_toList]
        rfl
  | int value =>
      refine readsTree_atom (isAtom_int (of_decide_eq_true hfits))
        (fun _ _ => ?_) fun _ _ => ?_
      · rw [String.ofList_toList]
        rfl
      · rw [String.ofList_toList]
        rfl
  | float value =>
      exact readsTree_atom (isAtom_float value) (fun _ _ => rfl) fun _ _ => rfl
  | text value => exact readsTree_text value
  | array items ih =>
      exact readsTree_array fun item hmem =>
        ih item hmem (Json.fitAll_iff.mp hfits item hmem)
  | object entries ih =>
      exact readsTree_object fun entry hmem =>
        ih entry hmem (Json.fieldsFit_iff.mp hfits entry hmem)

end

end Fragments.Yaml
