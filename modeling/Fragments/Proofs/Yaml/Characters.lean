import Fragments.Proofs.Yaml.DoubleText
import Fragments.Proofs.Yaml.Numbers
import Fragments.Proofs.Yaml.Runs
import Fragments.Proofs.Yaml.Texts
import Fragments.Yaml.Read

namespace Fragments.Yaml

/-- A character that may stand in a document and stays as it is when the
document is read. -/
def Printed (c : Char) : Prop := Tame c ∧ isAllowed c = true

instance (c : Char) : Decidable (Printed c) :=
  inferInstanceAs (Decidable (_ ∧ _))

theorem isAllowed_iff {c : Char} :
    isAllowed c = true ↔ c.toNat = 9 ∨ c.toNat = 10 ∨ c.toNat = 13 ∨
      (0x20 ≤ c.toNat ∧ c.toNat ≤ 0x7E) ∨ c.toNat = 0x85 ∨
      (0xA0 ≤ c.toNat ∧ c.toNat ≤ 0xD7FF) ∨
        (0xE000 ≤ c.toNat ∧ c.toNat ≤ 0xFFFD) ∨
      0x10000 ≤ c.toNat := by
  simp only [isAllowed, Bool.or_eq_true, Bool.and_eq_true, beq_iff_eq,
    decide_eq_true_eq, or_assoc]

theorem printed_of_isSpecial {c : Char} (hplain : Style.isSpecial c = false) :
    Printed c := by
  refine ⟨Style.tame_of_isSpecial hplain, isAllowed_iff.mpr ?_⟩
  rcases Style.isSpecial_eq_false hplain with rfl | hcases | hcases
  · exact .inr (.inl rfl)
  · omega
  · omega

theorem printed_of_needsEscape {c : Char} (hplain : needsEscape c = false) :
    Printed c := by
  refine ⟨(inline_of_needsEscape hplain).1, isAllowed_iff.mpr ?_⟩
  simp only [needsEscape, Bool.or_eq_false_iff, Bool.not_eq_false',
    Bool.or_eq_true, Bool.and_eq_true, beq_eq_false_iff_ne, decide_eq_true_eq]
    at hplain
  omega

theorem printed_of_digitIn? {c : Char} (hdigit : Number.digitIn? 16 c ≠ none) :
    Printed c := by
  refine ⟨(inline_of_digitIn? hdigit).1, isAllowed_iff.mpr ?_⟩
  by_contra hother
  have hapart {low high : Char} (hlow : 0x20 ≤ low.toNat)
      (hhigh : high.toNat ≤ 0x7E) :
      ¬(low ≤ c ∧ c ≤ high) := by
    rintro ⟨habove, hbelow⟩
    have habove : low.toNat ≤ c.toNat := habove
    have hbelow : c.toNat ≤ high.toNat := hbelow
    omega
  refine hdigit ?_
  rw [Number.digitIn?, if_neg (hapart (by decide) (by decide)),
    if_neg (hapart (by decide) (by decide)),
    if_neg (hapart (by decide) (by decide))]
  rfl

theorem printed_of_escaped (c : Char) : ∀ d ∈ escaped c, Printed d := by
  have hletters : ∀ name ∈ escapeNames, Printed name.2 := by decide
  have hhex {width : Nat} (hwidth : 0 < width) (hcode : c.toNat < 16 ^ width) :
      ∀ d ∈ upperHex width c.toNat, Printed d := by
    obtain ⟨digits, hdigits, -⟩ := mapM_digitIn?_upperHex hwidth hcode
    exact fun d hd => printed_of_digitIn? (ne_none_of_mem_mapM hdigits d hd)
  unfold escaped
  split
  · next letter hletter =>
      obtain ⟨before, after, hmem, -⟩ := List.lookup_eq_some_iff.mp hletter
      have hprinted : Printed letter :=
        hletters (c.toNat, letter) (by simp [hmem])
      simpa using ⟨by decide, hprinted⟩
  · split
    · next hsmall =>
        have hcode := hhex (show 0 < 2 by decide) (by omega)
        exact List.forall_mem_cons.mpr
          ⟨by decide, List.forall_mem_cons.mpr ⟨by decide, hcode⟩⟩
    · split
      · next hsmall =>
          have hcode := hhex (show 0 < 4 by decide) (by omega)
          exact List.forall_mem_cons.mpr
            ⟨by decide, List.forall_mem_cons.mpr ⟨by decide, hcode⟩⟩
      · have hvalid := toNat_lt c
        have hcode := hhex (show 0 < 8 by decide) (by omega)
        exact List.forall_mem_cons.mpr
          ⟨by decide, List.forall_mem_cons.mpr ⟨by decide, hcode⟩⟩

namespace Pen

def Prints (pen : Pen) : Prop := ∀ c ∈ pen.out, Printed c

variable {pen : Pen}

theorem Prints.write {chars : List Char} (hpen : pen.Prints)
    (hchars : ∀ c ∈ chars, Printed c) :
    (pen.write chars).Prints := by
  intro c hc
  rcases List.mem_append.mp hc with hc | hc
  · exact hchars c (List.mem_reverse.mp hc)
  · exact hpen c hc

theorem Prints.newline {c : Char} (hpen : pen.Prints) (hc : Printed c) :
    (pen.newline c).Prints :=
  List.forall_mem_cons.mpr ⟨hc, hpen⟩

theorem Prints.indentTo (hpen : pen.Prints) (indent : Nat) :
    (pen.indentTo indent).Prints := by
  have hblanks : ∀ count, ∀ c ∈ List.replicate count ' ', Printed c :=
    fun count c hc => by
      rw [List.eq_of_mem_replicate hc]
      decide
  unfold Pen.indentTo
  generalize hmoved : (if !pen.fresh || decide (indent < pen.column) ||
    (pen.column == indent && !pen.spaced) then pen.newline '\n' else pen) =
    moved
  have hprints : moved.Prints := by
    rw [← hmoved]
    split
    · exact hpen.newline (by decide)
    · exact hpen
  show (if moved.column < indent then _ else _ : Pen).Prints
  split
  · exact hprints.write (hblanks _)
  · exact hprints

theorem Prints.mark {text : List Char} (hpen : pen.Prints)
    (htext : ∀ c ∈ text, Printed c) (apart spaced fresh : Bool) :
    (pen.mark text apart spaced fresh).Prints := by
  have hmark :
      (pen.write (if pen.spaced || !apart then text
        else ' ' :: text)).Prints := by
    refine hpen.write ?_
    split
    · exact htext
    · exact List.forall_mem_cons.mpr ⟨by decide, htext⟩
  exact hmark

theorem Prints.breakTo (hpen : pen.Prints) (indent : Nat) :
    (pen.breakTo indent).Prints :=
  hpen.indentTo indent

end Pen

section

variable {pen : Pen} {chars : List Char}

theorem printed_of_mem_runs (hchars : ∀ c ∈ chars, Printed c) :
    ∀ run ∈ runs chars, ∀ c ∈ run, Printed c := fun run hrun c hc => by
  rw [← flatten_runs chars] at hchars
  exact hchars c (List.mem_flatten.mpr ⟨run, hrun, hc⟩)

theorem prints_writePlain (hpen : pen.Prints) (hchars : ∀ c ∈ chars, Printed c)
    (fold : Bool) (indent : Nat) :
    (writePlain fold indent chars pen).Prints := by
  have hruns {rest : List (List Char)}
      (hrest : ∀ run ∈ rest, ∀ c ∈ run, Printed c) {pen : Pen}
      (hpen : pen.Prints) : (writePlainRuns fold indent pen rest).Prints := by
    induction rest generalizing pen with
    | nil => exact hpen
    | cons run rest ih =>
        obtain ⟨hrun, hrest⟩ := List.forall_mem_cons.mp hrest
        rw [writePlainRuns]
        refine ih hrest ?_
        split
        · exact hpen.breakTo indent
        · exact hpen.write hrun
  unfold writePlain
  split
  · exact hpen
  · refine hruns (printed_of_mem_runs hchars) ?_
    split
    · exact hpen
    · exact hpen.write (by decide)

theorem prints_writeBreaks (hpen : pen.Prints) (hchars : ∀ c ∈ chars, Printed c)
    (indent : Nat) :
    (writeBreaks indent chars pen).Prints := by
  have hfold {breaks : List Char} (hbreaks : ∀ c ∈ breaks, Printed c)
      {pen : Pen} (hpen : pen.Prints) :
      (breaks.foldl (fun pen char => pen.newline char) pen).Prints := by
    induction breaks generalizing pen with
    | nil => exact hpen
    | cons c rest ih =>
        obtain ⟨hc, hrest⟩ := List.forall_mem_cons.mp hbreaks
        exact ih hrest (hpen.newline hc)
  have hfirst : (if chars.head? == some '\n' then pen.newline '\n'
      else pen).Prints := by
    split
    · exact hpen.newline (by decide)
    · exact hpen
  exact (hfold hchars hfirst).indentTo indent

theorem printed_of_mem_doubleQuotes (hchars : ∀ c ∈ chars, Printed c) :
    ∀ c ∈ doubleQuotes chars, Printed c := by
  intro c hc
  obtain ⟨d, hd, hc⟩ := List.mem_flatMap.mp hc
  split at hc
  · next hquote =>
      obtain rfl | rfl : c = '\'' ∨ c = '\'' := by simpa using hc
      · decide
      · decide
  · rw [List.mem_singleton.mp hc]
    exact hchars d hd

theorem prints_writeSingle (hpen : pen.Prints) (hchars : ∀ c ∈ chars, Printed c)
    (fold : Bool) (indent : Nat) :
    (writeSingle fold indent chars pen).Prints := by
  have hruns {rest : List (List Char)}
      (hrest : ∀ run ∈ rest, ∀ c ∈ run, Printed c) {pen : Pen}
      (hpen : pen.Prints) (first : Bool) :
      (writeSingleRuns fold indent first pen rest).Prints := by
    induction rest generalizing pen first with
    | nil => exact hpen
    | cons run rest ih =>
        obtain ⟨hrun, hrest⟩ := List.forall_mem_cons.mp hrest
        rw [writeSingleRuns]
        refine ih hrest ?_ false
        split
        · exact prints_writeBreaks hpen hrun indent
        · split
          · exact hpen.indentTo indent
          · exact hpen.write (printed_of_mem_doubleQuotes hrun)
  exact (hruns (printed_of_mem_runs hchars)
    (hpen.mark (by decide) true false false) true).mark
    (by decide) false false false

theorem prints_writeDouble (hpen : pen.Prints) (fold : Bool) (indent : Nat) :
    (writeDouble fold indent chars pen).Prints := by
  have hbreak {pen : Pen} (hpen : pen.Prints) (next : Option Char) :
      (breakDouble indent next pen).Prints := by
    have hmoved : ((pen.write ['\\']).breakTo indent).Prints :=
      (hpen.write (by decide)).breakTo indent
    unfold breakDouble
    simp only
    split
    · exact hmoved.write (by decide)
    · exact hmoved
  have hfrom {rest pending : List Char} (hpending : ∀ c ∈ pending, Printed c)
      {pen : Pen} (hpen : pen.Prints) (first : Bool) :
      (writeDoubleFrom fold indent pen pending first rest).Prints := by
    induction rest generalizing pending pen first with
    | nil => exact hpen.write fun c hc => hpending c (List.mem_reverse.mp hc)
    | cons c rest ih =>
        have hwritten : (pen.write pending.reverse).Prints :=
          hpen.write fun c hc => hpending c (List.mem_reverse.mp hc)
        rw [writeDoubleFrom]
        simp only
        split
        · refine ih (by simp) ?_ false
          have hescaped := hwritten.write (printed_of_escaped c)
          split
          · exact hbreak hescaped _
          · exact hescaped
        · next hplain =>
            have hc : Printed c :=
              printed_of_needsEscape (Bool.eq_false_iff.mpr hplain)
            split
            · exact ih (List.forall_mem_singleton.mpr hc)
                (hbreak hwritten _) false
            · exact ih (List.forall_mem_cons.mpr ⟨hc, hpending⟩) hpen false
  exact (hfrom (by simp) (hpen.mark (by decide) true false false) true).mark
    (by decide) false false false

theorem printed_of_allowsPlain (hplain : Style.allowsPlain chars = true) :
    ∀ c ∈ chars, Printed c := fun c hc =>
  printed_of_isSpecial ((Style.allowsPlain_iff.mp hplain).1 c hc).1

theorem prints_writeText (hpen : pen.Prints) (key : Bool) (indent : Nat)
    (text : String) :
    (writeText key indent text pen).Prints := by
  unfold writeText
  cases hstyle : Style.ofText key text with
  | plain =>
      exact prints_writePlain hpen
        (printed_of_allowsPlain (Style.ofText_eq_plain hstyle).2.1) _ _
  | single =>
      exact prints_writeSingle hpen
        (fun c hc => printed_of_isSpecial
          (Style.isSpecial_of_single hstyle c hc)) _ _
  | double => exact prints_writeDouble hpen _ _

theorem prints_pair (hpen : pen.Prints) {opening closing : Char}
    (hopening : Printed opening) (hclosing : Printed closing) :
    ((pen.mark [opening] true true false).mark [closing] false false
      false).Prints :=
  (hpen.mark (List.forall_mem_singleton.mpr hopening) true true false).mark
    (List.forall_mem_singleton.mpr hclosing) false false false

end

mutual

theorem prints_writeNode : ∀ {value : Json} {pen : Pen},
    value.fits = true → pen.Prints →
    ∀ (indent : Option Nat) (afterKey : Bool),
      (writeNode indent afterKey pen value).Prints
  | .null, _, _, hpen, _, _ =>
      prints_writePlain hpen (printed_of_allowsPlain isAtom_null.plain) _ _
  | .bool value, _, _, hpen, _, _ =>
      prints_writePlain hpen
        (printed_of_allowsPlain (isAtom_bool value).plain) _ _
  | .int _, _, hfits, hpen, _, _ =>
      prints_writePlain hpen
        (printed_of_allowsPlain (isAtom_int (of_decide_eq_true hfits)).plain) _
          _
  | .float value, _, _, hpen, _, _ =>
      prints_writePlain hpen
        (printed_of_allowsPlain (isAtom_float value).plain) _ _
  | .text value, _, _, hpen, _, _ => prints_writeText hpen false _ value
  | .array [], _, _, hpen, _, _ => prints_pair hpen (by decide) (by decide)
  | .array (_ :: _), _, hfits, hpen, _, _ => prints_writeItems hfits hpen _
  | .object [], _, _, hpen, _, _ => prints_pair hpen (by decide) (by decide)
  | .object (_ :: _), _, hfits, hpen, _, _ => prints_writeEntries hfits hpen _

theorem prints_writeItems : ∀ {items : List Json} {pen : Pen},
    Json.fitAll items = true →
    pen.Prints → ∀ indent : Nat, (writeItems indent pen items).Prints
  | [], _, _, hpen, _ => hpen
  | _ :: _, _, hfits, hpen, indent => by
      obtain ⟨hitem, hrest⟩ := Bool.and_eq_true_iff.mp hfits
      have hmarked :=
        (hpen.indentTo indent).mark (by decide : ∀ c ∈ ['-'], Printed c)
          true false true
      exact prints_writeItems hrest
        (prints_writeNode hitem hmarked (some indent) false) indent

theorem prints_writeEntries : ∀ {entries : List (String × Json)} {pen : Pen},
    Json.fieldsFit entries = true → pen.Prints →
    ∀ indent : Nat, (writeEntries indent pen entries).Prints
  | [], _, _, hpen, _ => hpen
  | (key, _) :: _, _, hfits, hpen, indent => by
      obtain ⟨hvalue, hrest⟩ := Bool.and_eq_true_iff.mp hfits
      have hplaced := hpen.indentTo indent
      have hasked :=
        hplaced.mark (by decide : ∀ c ∈ ['?'], Printed c) true false true
      rw [writeEntries]
      refine prints_writeEntries hrest
        (prints_writeNode hvalue ?_ (some indent) true) indent
      split
      · exact (prints_writeText hplaced true _ key).mark
          (by decide) false false false
      · exact ((prints_writeText hasked false _ key).indentTo indent).mark
          (by decide) true false true

end

theorem printed_of_mem_document {value : Json} (hfits : value.fits = true) :
    ∀ c ∈ (document value).toList, Printed c := by
  intro c hc
  rw [document, String.toList_ofList] at hc
  have hstart : Pen.start.Prints := fun c hc => absurd hc List.not_mem_nil
  exact ((prints_writeNode hfits hstart none false).indentTo 0) c
    (List.mem_reverse.mp hc)

end Fragments.Yaml
