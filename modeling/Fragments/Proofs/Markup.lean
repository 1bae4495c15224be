import Fragments.Markup.Table
import Fragments.Proofs.Data.Outcome

namespace Fragments

/-- Nothing is met that lies beyond this library. -/
abbrev StaysInside (outcome : Except Fault α) : Prop :=
  FailsOnly (fun fault => fault.isBeyond = false) outcome

theorem Number.inside_readInteger (base : Nat) (text : String) :
    StaysInside (readInteger base text) :=
  .ite (.error rfl) (.ite (.error rfl) (.ok _))

namespace StyleName

theorem inside_isTriple (parts : List Char) : StaysInside (isTriple parts) := by
  refine .ite (.ok _) ?_
  split
  · refine .bind ?_ fun _ _ => .ok _
    intro fault hbytes
    obtain ⟨_, part, _, _, -, -, hpart⟩ := mapM_eq_error_iff.mp hbytes
    exact Number.inside_readInteger 10 _ fault hpart
  · exact .ok _

theorem inside_isColor (word : String) : StaysInside (isColor word) := by
  refine .ite (.ok _) ?_
  split
  · exact inside_isTriple _
  · exact .ok _

theorem inside_ofWords (style : StyleName) (words : List String) :
    StaysInside (style.ofWords words) := by
  have hcolor {word : String} {next : Except Fault (Option StyleName)}
      (hnext : StaysInside next) :
      StaysInside (isColor word >>= fun found => if found then
        next else .ok none) :=
    (inside_isColor word).bind fun _ _ => .ite hnext (.ok none)
  fun_induction ofWords style words with
  | case2 _ _ _ _ _ _ ih => exact hcolor ih
  | case4 _ _ _ _ _ _ _ _ _ ih => exact ih
  | case7 _ _ _ _ _ _ _ _ ih => exact ih
  | case9 _ _ _ _ _ _ _ _ _ ih => exact ih
  | case10 _ _ _ _ _ _ _ _ ih => exact hcolor ih
  | case1 | case3 | case5 | case6 | case8 => exact .ok _

theorem inside_normalise (text : String) : StaysInside (normalise text) := by
  have htext : StaysInside (ofText text) := by
    unfold ofText
    split
    · exact .ok _
    · exact inside_ofWords _ _
  refine htext.bind fun found _ => ?_
  cases found <;> exact .ok _

end StyleName

namespace Markup

variable {mark : List Char} {opened : List OpenMark} {fault : Fault}

def Piece.mark? : Piece → Option (List Char)
  | .plain _ => none
  | .mark text => some text

def marksOf (chars : List Char) : List (List Char) :=
  (pieces chars).filterMap Piece.mark?

theorem filterMap_mark?_addPlain (chars : List Char) (rest : List Piece) :
    (Piece.addPlain chars rest).filterMap Piece.mark? =
      rest.filterMap Piece.mark? := by
  unfold Piece.addPlain
  split
  · rfl
  · split <;> rfl

theorem mem_of_escapedMark? {chars : List Char}
    {found : Nat × List Char × List Char}
    (hfound : escapedMark? chars = some found) : '[' ∈ chars := by
  unfold escapedMark? at hfound
  split at hfound
  · next rest hdropped =>
      have hmem : '[' ∈ chars.dropWhile (· == '\\') := by
        rw [hdropped]
        exact List.mem_cons_self
      exact (List.dropWhile_sublist _).mem hmem
  · cases hfound

theorem escapedMark?_cons_of_plain {c : Char} (hopen : c ≠ '[')
    (hslash : c ≠ '\\') (rest : List Char) :
    escapedMark? (c :: rest) = none := by
  have hkept : (c :: rest).dropWhile (· == '\\') = c :: rest :=
    List.dropWhile_cons_of_neg (by simpa using hslash)
  unfold escapedMark?
  rw [hkept]
  split
  · next heq => exact absurd (List.cons.inj heq).1 hopen
  · rfl

theorem marksOf_nil : marksOf [] = [] := by
  rw [marksOf, pieces]
  rfl

theorem marksOf_cons_of_none {c : Char} {rest : List Char}
    (hnone : escapedMark? (c :: rest) = none) :
    marksOf (c :: rest) = marksOf rest := by
  rw [marksOf, pieces]
  split
  · next hfound =>
      rw [hnone] at hfound
      cases hfound
  · exact filterMap_mark?_addPlain [c] _

theorem marksOf_of_not_mem {chars : List Char} (hopen : '[' ∉ chars) :
    marksOf chars = [] := by
  induction chars with
  | nil => exact marksOf_nil
  | cons c rest ih =>
      have hnone : escapedMark? (c :: rest) = none :=
        Option.eq_none_iff_forall_ne_some.mpr fun _ hfound =>
          hopen (mem_of_escapedMark? hfound)
      rw [marksOf_cons_of_none hnone]
      exact ih fun hmem => hopen (List.mem_cons_of_mem c hmem)

theorem marksOf_append_of_plain {before : List Char}
    (hplain : ∀ c ∈ before, c ≠ '[' ∧ c ≠ '\\') (rest : List Char) :
    marksOf (before ++ rest) = marksOf rest := by
  induction before with
  | nil => rfl
  | cons c more ih =>
      obtain ⟨⟨hopen, hslash⟩, hmore⟩ := List.forall_mem_cons.mp hplain
      rw [List.cons_append,
        marksOf_cons_of_none (escapedMark?_cons_of_plain hopen hslash _),
        ih hmore]

theorem marksOf_mark {first : Char} {word : List Char}
    (hfirst : startsMark first = true) (hword : ∀ c ∈ word, isBracket c = false)
    (rest : List Char) :
    marksOf ('[' :: first :: word ++ ']' :: rest) = (first :: word) ::
    marksOf rest := by
  have hfound : escapedMark? ('[' :: first :: (word ++ ']' :: rest)) =
      some (0, first :: word, rest) := by
    have hdropped : (word ++ ']' :: rest).dropWhile (fun c => !isBracket c) =
        ']' :: rest := by
      rw [List.dropWhile_append_of_pos (by simpa using hword)]
      rfl
    have htaken : (word ++ ']' :: rest).takeWhile
        (fun c => !isBracket c) = word := by
      rw [List.takeWhile_append_of_pos (by simpa using hword)]
      simp [isBracket]
    simp [escapedMark?, markText?, hfirst, hdropped, htaken]
  rw [marksOf, List.cons_append, List.cons_append, pieces]
  split
  · next slashes text after hsome =>
      rw [hfound] at hsome
      cases hsome
      rfl
  · next hnone =>
      rw [hfound] at hnone
      cases hnone

/-- The styles that are open after some marks, the last one first. -/
def openAfter (marks : List (List Char)) : Except Fault (List OpenMark) :=
  marks.foldlM (fun opened mark => applyMark mark opened) []

/-- A mark that closes a style which is not open, or just the last one when none
is. -/
structure ClosesNone (mark : List Char) (opened : List OpenMark) : Prop where
  closing : isClosing mark = true
  unopened :
    if (styleOf mark).isEmpty then opened = []
    else ∃ style, StyleName.normalise (styleOf mark) = .ok style ∧
      ∀ other ∈ opened, other.name ≠ style

/-- What is wrong with a mark, the marks before which leave `opened` open. -/
inductive Breaks (opened : List OpenMark) (mark : List Char) : Fault → Prop
  | stray (hcloses : ClosesNone mark opened) : Breaks opened mark .strayMark
  /-- Its style has a colour of three parts, one of which is no number. -/
  | color {fault : Fault}
      (hstyle : StyleName.normalise (styleOf mark) = .error fault) :
      Breaks opened mark fault

/-- Some mark of the text is the first with which something is wrong. -/
def Strays (text : String) (fault : Fault) : Prop :=
  ∃ before mark after opened, marksOf text.toList = before ++ mark :: after ∧
    openAfter before = .ok opened ∧ Breaks opened mark fault

theorem Breaks.isBeyond (hbreaks : Breaks opened mark fault) :
    fault.isBeyond = false := by
  cases hbreaks with
  | stray => rfl
  | color hstyle => exact StyleName.inside_normalise _ _ hstyle

theorem Strays.isBeyond {text : String} (hstrays : Strays text fault) :
    fault.isBeyond = false := by
  obtain ⟨_, _, _, _, -, -, hbreaks⟩ := hstrays
  exact hbreaks.isBeyond

theorem close?_eq_none_iff {name : String} :
    close? name opened = none ↔ ∀ mark ∈ opened, mark.name ≠ name := by
  induction opened with
  | nil => simp [close?]
  | cons last others ih =>
      unfold close?
      by_cases heq : last.name = name
      · simp [heq]
      · simp [heq, ih]

theorem normalise_of_isEmpty {name : String} (hempty : name.isEmpty = true) :
    ∃ style, StyleName.normalise name = .ok style := by
  obtain rfl : name = "" := String.isEmpty_iff.mp hempty
  exact ⟨_, rfl⟩

theorem closed?_eq_error_iff {name : String} :
    closed? name opened = .error fault ↔
      StyleName.normalise name = .error fault := by
  unfold closed?
  split
  · next hempty =>
      obtain ⟨style, hstyle⟩ := normalise_of_isEmpty hempty
      simp [hstyle]
  · simp [bind_eq_error_iff]

theorem closed?_eq_none_iff {name : String} :
    closed? name opened = .ok none ↔
      if name.isEmpty then opened = []
      else ∃ style, StyleName.normalise name = .ok style ∧
        ∀ mark ∈ opened, mark.name ≠ style := by
  unfold closed?
  split
  · cases opened <;> simp
  · simp [bind_eq_ok_iff, close?_eq_none_iff]

theorem isBeyond_of_checkStyle {mark : OpenMark}
    (hcheck : mark.checkStyle = .error fault) :
    fault.isBeyond = true := by
  unfold OpenMark.checkStyle at hcheck
  split at hcheck
  · cases hcheck
  · cases hcheck
    rfl

theorem isBeyond_of_checkHandler {mark : OpenMark}
    (hcheck : mark.checkHandler = .error fault) : fault.isBeyond = true := by
  unfold OpenMark.checkHandler at hcheck
  split at hcheck
  · split at hcheck
    · cases hcheck
    · cases hcheck
      rfl
  · cases hcheck

/-- Unless it meets what lies beyond, a mark fails for what is wrong with it. -/
theorem applyMark_eq_error_iff (hbeyond : fault.isBeyond = false) :
    applyMark mark opened = .error fault ↔ Breaks opened mark fault := by
  have hchecked {check : Except Fault Unit} {left : List OpenMark}
      (hcheck : check = .error fault → fault.isBeyond = true) :
      (check >>= fun _ => .ok left) ≠ .error fault := by
    intro herror
    rcases bind_eq_error_iff.mp herror with hfirst | ⟨_, -, hlast⟩
    · cases hbeyond.symm.trans (hcheck hfirst)
    · cases hlast
  unfold applyMark
  split
  · next hclosing =>
      rw [bind_eq_error_iff, closed?_eq_error_iff]
      constructor
      · rintro (hread | ⟨found, hclosed, happly⟩)
        · exact .color hread
        · cases found with
          | none =>
              cases happly
              exact .stray ⟨hclosing, closed?_eq_none_iff.mp hclosed⟩
          | some parts =>
              exact absurd happly (hchecked isBeyond_of_checkHandler)
      · intro hbreaks
        cases hbreaks with
        | stray hcloses =>
            exact .inr ⟨none, closed?_eq_none_iff.mpr hcloses.unopened, rfl⟩
        | color hread => exact .inl hread
  · next hopening =>
      rw [bind_eq_error_iff]
      constructor
      · rintro (hread | ⟨style, -, happly⟩)
        · exact .color hread
        · exact absurd happly (hchecked isBeyond_of_checkStyle)
      · intro hbreaks
        cases hbreaks with
        | stray hcloses => exact absurd hcloses.closing hopening
        | color hread => exact .inl hread

theorem renderPieces_eq_error_iff {rendered : List Piece} :
    renderPieces opened rendered = .error fault ↔
      (rendered.filterMap Piece.mark?).foldlM
        (fun opened mark => applyMark mark opened) opened = .error fault := by
  induction rendered generalizing opened with
  | nil => simp [renderPieces, pure, Except.pure]
  | cons piece rest ih =>
      cases piece with
      | plain chars =>
          rw [List.filterMap_cons_none rfl, ← ih]
          simp [renderPieces, bind_eq_error_iff]
      | mark text =>
          have hmark : (Piece.mark text :: rest).filterMap Piece.mark? =
            text :: rest.filterMap Piece.mark? := rfl
          rw [hmark, List.foldlM_cons]
          simp only [renderPieces, bind_eq_error_iff, ih]

theorem openAfter_marksOf_eq_error_iff (hbeyond : fault.isBeyond = false)
    {text : String} :
    openAfter (marksOf text.toList) = .error fault ↔ Strays text fault := by
  rw [openAfter, foldlM_eq_error_iff]
  simp only [applyMark_eq_error_iff hbeyond, Strays, openAfter]

/-- Unless it meets what lies beyond, rendering fails exactly when a mark breaks
off. -/
theorem render_eq_error_iff (hbeyond : fault.isBeyond = false) {text : String} :
    render text = .error fault ↔ Strays text fault := by
  rw [← openAfter_marksOf_eq_error_iff hbeyond]
  by_cases hopen : '[' ∈ text.toList
  · simp [render, hopen, bind_eq_error_iff, renderPieces_eq_error_iff,
      marksOf, openAfter]
  · simp [render, hopen, marksOf_of_not_mem hopen, openAfter, bind,
      Except.bind, pure, Except.pure]

theorem printLine_eq_error_iff (hbeyond : fault.isBeyond = false)
    {text : String} :
    printLine text = .error fault ↔ Strays text fault := by
  rw [← render_eq_error_iff hbeyond, printLine, bind_eq_error_iff, or_iff_left]
  rintro ⟨_, _, herror⟩
  cases herror

end Markup

namespace Table

/-- Something is wrong with a mark in some cell below the header. -/
def Strays (table : Table) : Prop :=
  ∃ row ∈ table.rows, ∃ cell ∈ row, ∃ fault, Markup.Strays cell fault

variable {table : Table} {fault : Fault}

theorem strays_of_rendered (hbeyond : fault.isBeyond = false)
    (hrendered : table.rendered = .error fault) : table.Strays := by
  rcases bind_eq_error_iff.mp hrendered with hrows | ⟨_, _, herror⟩
  · obtain ⟨_, row, _, _, hsplit, -, hrow⟩ := mapM_eq_error_iff.mp hrows
    obtain ⟨_, cell, _, _, hcells, -, hcell⟩ := mapM_eq_error_iff.mp hrow
    exact ⟨row, by simp [hsplit], cell, by simp [hcells], fault,
      (Markup.render_eq_error_iff hbeyond).mp hcell⟩
  · cases herror

theorem not_strays_of_rendered {drawn : Table}
    (hrendered : table.rendered = .ok drawn) :
    ¬table.Strays := by
  rintro ⟨row, hrow, cell, hcell, fault, hstrays⟩
  obtain ⟨rows, hrows, -⟩ := bind_eq_ok_iff.mp hrendered
  obtain ⟨cells, hcells⟩ := exists_mapM_eq_ok_iff.mp ⟨rows, hrows⟩ row hrow
  obtain ⟨printed, hprinted⟩ :=
    exists_mapM_eq_ok_iff.mp ⟨cells, hcells⟩ cell hcell
  cases hprinted.symm.trans
    ((Markup.render_eq_error_iff hstrays.isBeyond).mpr hstrays)

end Table

end Fragments
