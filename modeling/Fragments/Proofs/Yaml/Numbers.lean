import Fragments.Proofs.Json.Numbers
import Fragments.Proofs.Yaml.PlainText
import Fragments.Yaml.Atom

namespace Fragments.Yaml

open Json Number

def digitChars : List Char := "0123456789".toList

def numberChars : List Char := '-' :: '+' :: '.' :: 'e' :: digitChars

theorem mem_digitChars {c : Char} (hdigit : c.isDigit = true) :
    c ∈ digitChars := by
  have hall : ∀ n < 58, 48 ≤ n → Char.ofNat n ∈ digitChars := by decide
  obtain ⟨hlow, hhigh⟩ := (isDigit_iff c).mp hdigit
  have hzero : '0'.toNat ≤ c.toNat := hlow
  have hnine : c.toNat ≤ '9'.toNat := hhigh
  have hmem := hall c.toNat (Nat.lt_succ_of_le hnine) hzero
  rwa [Char.ofNat_toNat] at hmem

theorem mem_numberChars_of_isDigit {c : Char} (hdigit : c.isDigit = true) :
    c ∈ numberChars :=
  List.mem_append_right ['-', '+', '.', 'e'] (mem_digitChars hdigit)

section

variable {chars : List Char}

theorem withoutGaps_eq (hchars : ∀ c ∈ chars, c ∈ numberChars) :
    withoutGaps (String.ofList chars) = chars := by
  have hgap : ∀ c ∈ numberChars, (c != '_') = true := by decide
  rw [withoutGaps, String.toList_ofList, List.filter_eq_self]
  exact fun c hc => hgap c (hchars c hc)

theorem lower_eq (hchars : ∀ c ∈ chars, c ∈ numberChars) :
    Text.lower (String.ofList chars) = String.ofList chars := by
  have hsame : ∀ c ∈ numberChars, c.toNat ≠ 0x3A3 ∧
      Text.lowerChar c = [c] := by decide
  have hfrom (afterCased : Bool) : Text.lowerFrom afterCased chars = chars := by
    induction chars generalizing afterCased with
    | nil => rfl
    | cons c rest ih =>
        obtain ⟨hother, hlower⟩ := hsame c (hchars c List.mem_cons_self)
        rw [Text.lowerFrom, if_neg hother, hlower,
          ih (fun d hd => hchars d (List.mem_cons_of_mem c hd))]
        rfl
  rw [Text.lower, String.toList_ofList, hfrom]

theorem plainChars_eq (hchars : ∀ c ∈ chars, c ∈ numberChars) :
    plainChars chars = chars := by
  have hascii : ∀ c ∈ numberChars, c.toNat < 127 := by decide
  induction chars with
  | nil => rfl
  | cons c rest ih =>
      rw [plainChars, if_pos (hascii c (hchars c List.mem_cons_self)),
        ih fun d hd => hchars d (List.mem_cons_of_mem c hd)]

theorem dropWhile_isAsciiBlank (hchars : ∀ c ∈ chars, c ∈ numberChars) :
    chars.dropWhile isAsciiBlank = chars := by
  have hblank : ∀ c ∈ numberChars, isAsciiBlank c = false := by decide
  cases chars with
  | nil => rfl
  | cons c rest =>
      rw [List.dropWhile_cons_of_neg]
      rw [hblank c (hchars c List.mem_cons_self)]
      decide

theorem trimBoth_isAsciiBlank (hchars : ∀ c ∈ chars, c ∈ numberChars) :
    Text.trimBoth isAsciiBlank chars = chars := by
  rw [Text.trimBoth, dropWhile_isAsciiBlank hchars,
    dropWhile_isAsciiBlank fun c hc => hchars c (List.mem_reverse.mp hc),
    List.reverse_reverse]

end

/-- A number as it is written: a sign where it is negative, and what starts with
a digit. -/
structure Numeral (negative : Bool) (unsigned chars : List Char) : Prop where
  text : chars = if negative then '-' :: unsigned else unsigned
  starts : ∃ c rest, unsigned = c :: rest ∧ c.isDigit = true
  made : ∀ c ∈ unsigned, c ∈ numberChars

namespace Numeral

variable {negative : Bool} {unsigned chars : List Char}

theorem mem_numberChars (hnumeral : Numeral negative unsigned chars) :
    ∀ c ∈ chars, c ∈ numberChars := by
  obtain ⟨rfl, -, hmade⟩ := hnumeral
  cases negative with
  | false => exact hmade
  | true => exact List.forall_mem_cons.mpr ⟨by decide, hmade⟩

theorem ne_nil (hnumeral : Numeral negative unsigned chars) : chars ≠ [] := by
  obtain ⟨rfl, ⟨c, rest, rfl, -⟩, -⟩ := hnumeral
  cases negative <;> simp

theorem signOf_eq (hnumeral : Numeral negative unsigned chars) :
    signOf chars = (negative, unsigned) := by
  have hsign : ∀ c ∈ digitChars, c ≠ '-' ∧ c ≠ '+' := by decide
  obtain ⟨rfl, ⟨c, rest, rfl, hdigit⟩, -⟩ := hnumeral
  obtain ⟨hminus, hplus⟩ := hsign c (mem_digitChars hdigit)
  cases negative with
  | true => rfl
  | false =>
      unfold signOf
      split
      · next heq => exact absurd (List.cons.inj heq).1 hminus
      · next heq => exact absurd (List.cons.inj heq).1 hplus
      · rfl

theorem signedPart_eq (hnumeral : Numeral negative unsigned chars) :
    signedPart chars = .ok (negative, unsigned) := by
  obtain ⟨c, rest, rfl⟩ := List.exists_cons_of_ne_nil hnumeral.ne_nil
  exact congrArg Except.ok hnumeral.signOf_eq

theorem dropSign_eq (hnumeral : Numeral negative unsigned chars) :
    Shape.dropSign chars = unsigned := by
  have hsign : ∀ c ∈ digitChars, ¬Shape.isSign c = true := by decide
  obtain ⟨rfl, ⟨c, rest, rfl, hdigit⟩, -⟩ := hnumeral
  cases negative with
  | true => rfl
  | false => exact if_neg (hsign c (mem_digitChars hdigit))

theorem dropFinalNewline_eq (hnumeral : Numeral negative unsigned chars) :
    Shape.dropFinalNewline chars = chars := by
  refine if_neg fun hlast => ?_
  have hmem := hnumeral.mem_numberChars _ (List.mem_of_getLast? hlast)
  exact absurd hmem (by decide)

theorem hasMark_eq_false {rest : List Char}
    (hrest : ∀ c ∈ rest, c ∈ numberChars) (previous : Char) :
    Style.hasMark previous rest = false := by
  have hother : ∀ c ∈ numberChars, (c == ':') = false ∧
      (c == '#') = false := by decide
  induction rest generalizing previous with
  | nil => rfl
  | cons c more ih =>
      obtain ⟨hcolon, hhash⟩ := hother c (hrest c List.mem_cons_self)
      rw [Style.hasMark, hcolon, hhash, ih fun d hd =>
        hrest d (List.mem_cons_of_mem c hd)]
      rfl

theorem hasIndicator_eq_false (hnumeral : Numeral negative unsigned chars) :
    Style.hasIndicator chars = false := by
  have hfirst : ∀ c ∈ digitChars, Style.isLeadingMark c = false ∧
      endsToken c = false ∧ ('-' == c) = false ∧ ('.' == c) = false ∧
        (c == '?' || c == ':' || c == '-') = false := by
    decide
  obtain ⟨rfl, ⟨c, rest, rfl, hdigit⟩, hmade⟩ := hnumeral
  obtain ⟨hmark, hends, hminus, hdot, hother⟩ :=
    hfirst c (mem_digitChars hdigit)
  have hrest := hasMark_eq_false
    (fun d hd => hmade d (List.mem_cons_of_mem c hd)) c
  cases negative with
  | true =>
      have hall := hasMark_eq_false hmade '-'
      have hword : Style.wordEnds (c :: rest) = false := hends
      simp [Style.hasIndicator, Style.isLeadingMark, List.isPrefixOf, hminus,
        hword, hall]
  | false =>
      simp [Style.hasIndicator, List.isPrefixOf, hmark, hminus, hdot,
        hother, hrest]

theorem allowsPlain (hnumeral : Numeral negative unsigned chars) :
    Style.allowsPlain chars = true := by
  have hvisible : ∀ c ∈ numberChars,
      (Style.isSpecial c = false ∧ Style.isBreak c = false) ∧
        c ≠ ' ' := by decide
  have hmem := hnumeral.mem_numberChars
  exact Style.allowsPlain_iff.mpr ⟨fun c hc => (hvisible c (hmem c hc)).1,
    hnumeral.hasIndicator_eq_false,
    fun c hc => (hvisible c (hmem c (List.mem_of_mem_head? hc))).2,
    fun c hc => (hvisible c (hmem c (List.mem_of_getLast? hc))).2⟩

theorem ofPlain_eq (hnumeral : Numeral negative unsigned chars)
    (hshape : (Shape.isFloat chars || Shape.isInt chars) = true) :
    Tag.ofPlain (String.ofList chars) = if Shape.isFloat chars then .float
      else .int := by
  have hletters :
      ∀ c ∈ '-' :: digitChars, "yYnNtTfFoO".toList.contains c = false ∧
      "-+0123456789.".toList.contains c = true ∧
        "-+0123456789".toList.contains c = true := by
    decide
  have hnewline := hnumeral.dropFinalNewline_eq
  obtain ⟨c, rest, rfl, hc⟩ : ∃ c rest, chars = c :: rest ∧
      c ∈ '-' :: digitChars := by
    obtain ⟨rfl, ⟨c, rest, rfl, hdigit⟩, -⟩ := hnumeral
    cases negative with
    | true => exact ⟨'-', _, rfl, List.mem_cons_self⟩
    | false =>
        exact ⟨c, rest, rfl, List.mem_cons_of_mem _ (mem_digitChars hdigit)⟩
  obtain ⟨hbool, hfloat, hint⟩ := hletters c hc
  rw [Tag.ofPlain, String.toList_ofList, hnewline]
  simp only [List.isEmpty_cons, List.head?_cons, Option.all_some, hbool,
    hfloat, hint, Bool.false_and, Bool.true_and, Bool.false_eq_true, if_false]
  cases hshown : Shape.isFloat (c :: rest) with
  | true => rfl
  | false =>
      rw [hshown, Bool.false_or] at hshape
      simp [hshape]

end Numeral

/-- What is written as a plain scalar, looks like an atom of a kind, and is read
as it. -/
structure IsAtom (chars : List Char) (tag : Tag) (value : Scalar) : Prop where
  plain : Style.allowsPlain chars = true
  ne_nil : chars ≠ []
  tag_eq : Tag.ofPlain (String.ofList chars) = tag
  read : Graph.readAtom tag (String.ofList chars) = .ok value

theorem isAtom_null : IsAtom "null".toList .null .null :=
  ⟨by decide, by decide, by decide, rfl⟩

theorem isAtom_bool (value : Bool) :
    IsAtom (if value then "true" else "false").toList .bool (.bool value) := by
  cases value with
  | true => exact ⟨by decide, by decide, by decide, by decide⟩
  | false => exact ⟨by decide, by decide, by decide, by decide⟩

section

variable {digits : List Char}

theorem numeral_digits (negative : Bool) (hne : digits ≠ [])
    (hdigits : ∀ c ∈ digits, c.isDigit = true) :
    Numeral negative digits (if negative then '-' :: digits else digits) := by
  obtain ⟨c, rest, rfl⟩ := List.exists_cons_of_ne_nil hne
  exact ⟨rfl, ⟨c, rest, rfl, hdigits c List.mem_cons_self⟩,
    fun d hd => mem_numberChars_of_isDigit (hdigits d hd)⟩

theorem oneOf_eq_false (words : List String)
    (hwords : ∀ word ∈ words, '.' ∈ word.toList) {chars : List Char}
    (hdot : '.' ∉ chars) : Shape.oneOf words chars = false := by
  rw [Shape.oneOf, List.any_eq_false]
  intro word hmem heq
  exact hdot (eq_of_beq heq ▸ hwords word hmem)

theorem isFloat_eq_false {chars : List Char} (hdot : '.' ∉ chars) :
    Shape.isFloat chars = false := by
  have hunsigned : '.' ∉ Shape.dropSign chars := by
    cases chars with
    | nil => exact hdot
    | cons c rest =>
        rw [Shape.dropSign]
        split
        · exact fun hmem => hdot (List.mem_cons_of_mem c hmem)
        · exact hdot
  have hhead : (chars.head? == some '.') = false :=
    beq_eq_false_iff_ne.mpr fun hhead => hdot (List.mem_of_mem_head? hhead)
  have hspan : (Shape.dropSign chars).span (· != '.') =
      (Shape.dropSign chars, []) := by
    have hspan : (Shape.dropSign chars ++ []).span (· != '.') = _ := span_append
      (fun c hc => bne_iff_ne.mpr fun heq => hunsigned (heq ▸ hc)) (by simp)
    rwa [List.append_nil] at hspan
  simp only [Shape.isFloat, hspan, hhead,
    oneOf_eq_false [".inf", ".Inf", ".INF"] (by decide) hunsigned,
    oneOf_eq_false [".nan", ".NaN", ".NAN"] (by decide) hdot,
    List.isEmpty_nil, Bool.not_true, Bool.false_and, Bool.or_false]

theorem isInt_digits (hdigits : ∀ c ∈ digits, c.isDigit = true)
    (hne : digits ≠ []) (hlead : digits = ['0'] ∨ digits.head? ≠ some '0')
    {negative : Bool} {chars : List Char}
    (hnumeral : Numeral negative digits chars) : Shape.isInt chars = true := by
  have hstarts : ∀ c ∈ digitChars, c ≠ '0' →
      ('1' ≤ c && c ≤ '9') = true := by decide
  have hgap : ∀ c ∈ digitChars, Shape.isDigitOrGap c = true := by decide
  rw [Shape.isInt, hnumeral.dropSign_eq]
  rcases hlead with rfl | hlead
  · rfl
  · obtain ⟨c, rest, rfl⟩ := List.exists_cons_of_ne_nil hne
    have hzero : c ≠ '0' := fun heq => hlead (congrArg some heq)
    have hnonzero : Shape.startsNonZero (c :: rest) = true := by
      have hrest : rest.all Shape.isDigitOrGap = true :=
        List.all_eq_true.mpr fun d hd =>
          hgap d (mem_digitChars (hdigits d (List.mem_cons_of_mem c hd)))
      rw [Shape.startsNonZero,
        hstarts c (mem_digitChars (hdigits c List.mem_cons_self)) hzero, hrest]
      rfl
    rw [Bool.or_eq_true]
    left
    split
    · next heq => exact absurd (List.cons.inj heq).1 hzero
    · next heq => exact absurd (List.cons.inj heq).1 hzero
    · next heq => exact absurd (List.cons.inj heq).1 hzero
    · exact hnonzero

theorem digitRun_eq (hdigits : ∀ c ∈ digits, c.isDigit = true) :
    digitRun 10 digits = (digits.map (·.toNat - '0'.toNat), []) := by
  have hrun : digitRun 10 (digits ++ []) = _ := digitRun_append hdigits
    fun c hc => by cases hc
  rwa [List.append_nil] at hrun

theorem skipBaseMark_ten (chars : List Char) :
    skipBaseMark 10 chars = chars := by
  unfold skipBaseMark
  split
  · next c rest => exact if_neg (by simp [isBaseMark])
  · rfl

theorem readInteger_digits (hdigits : ∀ c ∈ digits, c.isDigit = true)
    (hne : digits ≠ []) (hfew : digits.length ≤ digitLimit) :
    readInteger 10 (String.ofList digits) = .ok (digitsValue digits) := by
  have hmade : ∀ c ∈ digits, c ∈ numberChars := fun c hc =>
    mem_numberChars_of_isDigit (hdigits c hc)
  have hsign := (numeral_digits false hne hdigits).signOf_eq
  have hlength : ¬(digits.map (·.toNat - '0'.toNat)).length > digitLimit := by
    rw [List.length_map]
    omega
  have hsome : (digits.map (·.toNat - '0'.toNat)).isEmpty = false := by
    simpa using hne
  simp only [if_neg Bool.false_ne_true] at hsign
  simp only [readInteger, String.toList_ofList, plainChars_eq hmade,
    dropWhile_isAsciiBlank hmade, hsign, skipBaseMark_ten, digitRun_eq hdigits,
    hsome, true_and, if_neg hlength]
  rfl

theorem readUnsigned_digits (hdigits : ∀ c ∈ digits, c.isDigit = true)
    (hne : digits ≠ []) (hlead : digits = ['0'] ∨ digits.head? ≠ some '0')
    (hfew : digits.length ≤ digitLimit) :
    readUnsigned digits = .ok (digitsValue digits) := by
  rcases hlead with rfl | hlead
  · rfl
  · have hcolon : digits.contains ':' = false := by
      have hother : ∀ c ∈ digitChars, c ≠ ':' := by decide
      rw [List.contains_eq_mem, decide_eq_false_iff_not]
      exact fun hmem => hother _ (mem_digitChars (hdigits _ hmem)) rfl
    unfold readUnsigned
    split
    · exact absurd rfl hne
    · exact absurd rfl hlead
    · exact absurd rfl hlead
    · exact absurd rfl hlead
    · exact absurd rfl hlead
    · rw [if_neg (by rw [hcolon]; decide)]
      exact readInteger_digits hdigits hne hfew

end

theorem isAtom_int {n : Int}
    (hfits : Binary64.digitCount n.natAbs ≤ digitLimit) :
    IsAtom (toString n).toList .int (.int n) := by
  have hdigits : ∀ c ∈ Nat.toDigits 10 n.natAbs, c.isDigit = true := fun c =>
    isDigit_of_mem_toDigits
  have hne : Nat.toDigits 10 n.natAbs ≠ [] := Nat.toDigits_ne_nil
  have hlead : Nat.toDigits 10 n.natAbs = ['0'] ∨
      (Nat.toDigits 10 n.natAbs).head? ≠ some '0' := by
    rcases Nat.eq_zero_or_pos n.natAbs with hzero | hpositive
    · exact .inl (by rw [hzero, Nat.toDigits_zero])
    · exact .inr (Binary64.head?_toDigits_ne hpositive)
  have hnumeral := numeral_digits (decide (n < 0)) hne hdigits
  rw [← toList_toString] at hnumeral
  have hpoint : '.' ∉ (toString n).toList := by
    have hother : '.' ∉ Nat.toDigits 10 n.natAbs := fun hmem => by
      cases hdigits _ hmem
    rw [toList_toString]
    split
    · exact List.not_mem_cons_of_ne_of_not_mem (by decide) hother
    · exact hother
  have hint := isInt_digits hdigits hne hlead hnumeral
  have htag : Tag.ofPlain (String.ofList (toString n).toList) = .int := by
    rw [hnumeral.ofPlain_eq (by rw [hint, Bool.or_true]),
      isFloat_eq_false hpoint]
    rfl
  have hvalue : digitsValue (Nat.toDigits 10 n.natAbs) = n.natAbs := by
    rw [digitsValue_eq, Nat.ofDigitChars_ten_toDigits]
  have hread : readInt (String.ofList (toString n).toList) = .ok n := by
    have hunsigned := readUnsigned_digits hdigits hne hlead hfits
    have hsigned :
        (if decide (n < 0) then -(n.natAbs : Int) else n.natAbs) = n := by
      simp only [decide_eq_true_eq, signed_natAbs]
    rw [hvalue] at hunsigned
    rw [readInt, withoutGaps_eq hnumeral.mem_numberChars,
      hnumeral.signedPart_eq]
    show readUnsigned _ >>= _ = _
    rw [hunsigned]
    exact congrArg Except.ok hsigned
  refine ⟨hnumeral.allowsPlain, hnumeral.ne_nil, htag, ?_⟩
  rw [Graph.readAtom, hread]
  rfl

open Binary64

/-- A float that shows a point. -/
structure Pointed (unsigned whole fraction : List Char)
    (exponent : Option Int) :
    Prop extends Spelled unsigned whole fraction exponent where
  point : fraction ≠ []

namespace Pointed

variable {unsigned whole fraction : List Char} {exponent : Option Int}

theorem text_eq (hpointed : Pointed unsigned whole fraction exponent) :
    unsigned = whole ++ '.' :: (fraction ++ exponent.elim [] exponentText) := by
  obtain ⟨⟨rfl, -⟩, hpoint⟩ := hpointed
  have hsome : fraction.isEmpty = false := by simpa using hpoint
  simp [hsome]

theorem exists_exponent (exponent : Option Int) :
    exponent.elim [] exponentText = [] ∧ exponent = none ∨
      ∃ sign digits, exponent.elim [] exponentText = 'e' :: sign :: digits ∧
        Shape.isSign sign = true ∧ digits ≠ [] ∧
          ∀ c ∈ digits, c.isDigit = true := by
  cases exponent with
  | none => exact .inl ⟨rfl, rfl⟩
  | some exponent =>
      obtain ⟨digits, hdigits, hne, -, htext⟩ := exists_exponentText exponent
      refine .inr ⟨_, digits, htext, ?_, hne, hdigits⟩
      split <;> rfl

theorem numeral (hpointed : Pointed unsigned whole fraction exponent)
    (negative : Bool) :
    Numeral negative unsigned
      (if negative then '-' :: unsigned else unsigned) := by
  have htext := hpointed.text_eq
  obtain ⟨⟨-, hne, hdigits, -, hbehind, -⟩, -⟩ := hpointed
  subst htext
  refine ⟨rfl, ?_, ?_⟩
  · obtain ⟨c, rest, rfl⟩ := List.exists_cons_of_ne_nil hne
    exact ⟨c, _, rfl, hdigits c List.mem_cons_self⟩
  · have hexponent : ∀ c ∈ exponent.elim [] exponentText, c ∈ numberChars := by
      rcases exists_exponent exponent with
        ⟨hnone, -⟩ | ⟨sign, digits, hsome, hsign, -, hall⟩
      · rw [hnone]
        exact fun c hc => absurd hc List.not_mem_nil
      · have hsigned : sign ∈ numberChars := by
          simp only [Shape.isSign, Bool.or_eq_true, beq_iff_eq] at hsign
          rcases hsign with rfl | rfl <;> decide
        rw [hsome]
        exact List.forall_mem_cons.mpr ⟨by decide, List.forall_mem_cons.mpr
          ⟨hsigned, fun c hc => mem_numberChars_of_isDigit (hall c hc)⟩⟩
    rw [List.forall_mem_append, List.forall_mem_cons, List.forall_mem_append]
    exact ⟨fun c hc => mem_numberChars_of_isDigit (hdigits c hc), by decide,
      fun c hc => mem_numberChars_of_isDigit (hbehind c hc), hexponent⟩

theorem isFloat (hpointed : Pointed unsigned whole fraction exponent)
    (negative : Bool) :
    Shape.isFloat (if negative then '-' :: unsigned else unsigned) = true := by
  have hgap : ∀ c ∈ digitChars, Shape.isDigitOrGap c = true ∧
      Shape.isDigit c = true ∧ (c != '.') = true := by decide
  have hsign := (hpointed.numeral negative).dropSign_eq
  have htext := hpointed.text_eq
  obtain ⟨⟨-, hne, hdigits, -, hbehind, -⟩, -⟩ := hpointed
  have hwhole : unsigned.span (· != '.') =
      (whole, '.' :: (fraction ++ exponent.elim [] exponentText)) := by
    rw [htext]
    exact span_append (p := (· != '.'))
      (fun c hc => (hgap c (mem_digitChars (hdigits c hc))).2.2) (by simp)
  have hexponent := exists_exponent exponent
  generalize exponent.elim [] exponentText = written at hexponent hwhole
  have hfraction : (fraction ++ written).span Shape.isDigitOrGap =
      (fraction, written) := by
    refine span_append (p := Shape.isDigitOrGap)
      (fun c hc => (hgap c (mem_digitChars (hbehind c hc))).1) fun c hc => ?_
    rcases hexponent with ⟨rfl, -⟩ | ⟨sign, digits, rfl, -⟩
    · cases hc
    · cases hc
      rfl
  have hstarts : Shape.startsDigit whole = true := by
    obtain ⟨c, rest, rfl⟩ := List.exists_cons_of_ne_nil hne
    have hrest : rest.all Shape.isDigitOrGap = true :=
      List.all_eq_true.mpr fun d hd =>
        (hgap d (mem_digitChars (hdigits d (List.mem_cons_of_mem c hd)))).1
    rw [Shape.startsDigit, hrest,
      (hgap c (mem_digitChars (hdigits c List.mem_cons_self))).2.1]
    rfl
  have hends : Shape.isExponent written = true := by
    rcases hexponent with ⟨rfl, -⟩ | ⟨sign, digits, rfl, hsigned, hsome, hall⟩
    · rfl
    · have hdigits : digits.all Shape.isDigit = true := List.all_eq_true.mpr
        fun d hd =>
          (hgap d (mem_digitChars (hall d hd))).2.1
      simp [Shape.isExponent, Shape.nonEmptyOf, hsigned, hsome, hdigits]
  simp only [Shape.isFloat, hsign, hwhole, List.drop_succ_cons, List.drop_zero,
    hfraction, hstarts, hends, List.isEmpty_cons, Bool.not_false, Bool.true_and,
    Bool.true_or]

theorem exponentOf_exponentText (exponent : Int) :
    exponentOf (exponentText exponent) = (exponent, []) := by
  obtain ⟨digits, hdigits, hne, hvalue, htext⟩ := exists_exponentText exponent
  have hnumber : ofDigits 10 (digits.map (·.toNat - '0'.toNat)) =
      exponent.natAbs := hvalue
  rw [htext, exponentOf]
  simp only [beq_self_eq_true, Bool.true_or, if_true, signOf_signed,
    digitRun_eq hdigits]
  split
  · next hnil =>
      exact absurd (List.map_eq_nil_iff.mp (congrArg Prod.fst hnil)) hne
  · next heq =>
      cases heq
      simp only [hnumber, decide_eq_true_eq, signed_natAbs]

theorem decimalOf?_eq (hpointed : Pointed unsigned whole fraction exponent) :
    decimalOf? unsigned =
      some (digitsValue (whole ++ fraction),
        exponent.getD 0 - fraction.length, []) := by
  have hexponent : exponentOf (exponent.elim [] exponentText) =
      (exponent.getD 0, []) := by
    cases exponent with
    | none => rfl
    | some exponent => exact exponentOf_exponentText exponent
  have hends : EndsDigits (exponent.elim [] exponentText) := by
    cases exponent with
    | none => exact fun c hc => by cases hc
    | some exponent => exact endsDigits_cons rfl _
  rw [hpointed.text_eq]
  obtain ⟨⟨-, hne, hdigits, -, hbehind, -⟩, -⟩ := hpointed
  have hwhole := digitRun_append hdigits (endsDigits_cons (c := '.') rfl
    (fraction ++ exponent.elim [] exponentText))
  have hfraction := digitRun_append hbehind hends
  have hsome : (whole.map (·.toNat - '0'.toNat)).isEmpty = false := by
    simpa using hne
  simp only [decimalOf?, hwhole, hfraction, hsome, hexponent, Bool.false_and,
    Bool.false_eq_true, if_false, List.length_map, ← List.map_append]
  rfl

theorem readFloat_eq (hpointed : Pointed unsigned whole fraction exponent) :
    readFloat (String.ofList unsigned) =
      .ok (ofDecimal false (digitsValue (whole ++ fraction))
        (exponent.getD 0 - fraction.length)) := by
  have hnumeral := hpointed.numeral false
  have hmade : ∀ c ∈ unsigned, c ∈ numberChars := hnumeral.mem_numberChars
  have hsign : signOf unsigned = (false, unsigned) := hnumeral.signOf_eq
  have hdecimal := hpointed.decimalOf?_eq
  have hword (word : String)
      (hword : ∀ c ∈ digitChars, word.toList.head? ≠ some c) :
      String.ofList unsigned ≠ word := by
    obtain ⟨c, rest, hchars, hdigit⟩ := hnumeral.starts
    rintro rfl
    refine hword c (mem_digitChars hdigit) ?_
    rw [String.toList_ofList, hchars]
    rfl
  have hfound : unsignedFloat? false unsigned =
      some (ofDecimal false (digitsValue (whole ++ fraction))
        (exponent.getD 0 - fraction.length)) := by
    simp only [unsignedFloat?, lower_eq hmade, hdecimal]
    rw [if_neg
      (not_or.mpr ⟨hword "inf" (by decide), hword "infinity" (by decide)⟩),
      if_neg (hword "nan" (by decide))]
  simp only [readFloat, String.toList_ofList, plainChars_eq hmade,
    trimBoth_isAsciiBlank hmade, hsign, hfound]

theorem readFloatNode_eq (hpointed : Pointed unsigned whole fraction exponent)
    (negative : Bool) {position : Fin (2047 * 2 ^ 52)}
    (hvalue : ofDecimal false (digitsValue (whole ++ fraction))
      (exponent.getD 0 - fraction.length) = .finite false position) :
    readFloatNode
      (String.ofList (if negative then '-' :: unsigned else unsigned)) =
      .ok (.finite negative position) := by
  have hnumeral := hpointed.numeral negative
  have hword (word : List Char)
      (hword : ∀ c ∈ digitChars, word.head? ≠ some c) :
      ¬(unsigned == word) = true := by
    obtain ⟨c, rest, hchars, hdigit⟩ := hnumeral.starts
    rw [beq_iff_eq]
    rintro rfl
    exact hword c (mem_digitChars hdigit) (by rw [hchars]; rfl)
  have hcolon : ¬unsigned.contains ':' = true := by
    have hother : ∀ c ∈ numberChars, c ≠ ':' := by decide
    rw [List.contains_eq_mem, decide_eq_true_eq]
    exact fun hmem => hother _ (hnumeral.made _ hmem) rfl
  have hunsigned : readUnsignedFloat unsigned =
      .ok (.finite false position) := by
    rw [readUnsignedFloat, if_neg (hword ".inf".toList (by decide)),
      if_neg (hword ".nan".toList (by decide)), if_neg hcolon,
      hpointed.readFloat_eq, hvalue]
  rw [readFloatNode, withoutGaps_eq hnumeral.mem_numberChars,
    lower_eq hnumeral.mem_numberChars, String.toList_ofList,
    hnumeral.signedPart_eq]
  show readUnsignedFloat unsigned >>= _ = _
  rw [hunsigned]
  cases negative <;> rfl

end Pointed

theorem ofDecimal_append_zero (negative : Bool) (digits : List Char)
    (exponent : Int) :
    ofDecimal negative (digitsValue (digits ++ ['0'])) (exponent - 1) =
      ofDecimal negative (digitsValue digits) exponent := by
  have hten : digitsValue (digits ++ ['0']) = digitsValue digits * 10 :=
    digitsValue_append_zeros digits 1
  rw [hten]
  rcases Nat.eq_zero_or_pos (digitsValue digits) with hzero | hpos
  · rw [hzero, Nat.zero_mul, ofDecimal, if_pos rfl, ofDecimal, if_pos rfl]
  · rw [ofDecimal_mul_ten hpos, Int.sub_add_cancel]

/-- What stands for a character of a float that shows no point. -/
def pointedChar (c : Char) : List Char := if c == 'e' then
    ['.', '0', 'e'] else [c]

theorem flatMap_pointedChar {chars : List Char}
    (hchars : ∀ c ∈ chars, c ≠ 'e') :
    chars.flatMap pointedChar = chars := by
  induction chars with
  | nil => rfl
  | cons c rest ih =>
      obtain ⟨hc, hrest⟩ := List.forall_mem_cons.mp hchars
      rw [List.flatMap_cons, ih hrest, pointedChar, if_neg (by simpa using hc)]
      rfl

/-- Digits with an exponent show no point, and are given one in front of the
exponent. -/
theorem flatMap_pointedChar_exponent {whole : List Char}
    (hwhole : ∀ c ∈ whole, c.isDigit = true) (exponent : Int) :
    '.' ∉ whole ++ exponentText exponent ∧
      (whole ++ exponentText exponent).flatMap pointedChar =
        whole ++ '.' :: '0' :: exponentText exponent := by
  obtain ⟨digits, hdigits, -, -, hexponent⟩ := exists_exponentText exponent
  obtain ⟨sign, hsigned, hsign, hdot⟩ :
      ∃ sign, exponentText exponent = 'e' :: sign :: digits ∧
      pointedChar sign = [sign] ∧ sign ≠ '.' := by
    refine ⟨_, hexponent, ?_⟩
    split <;> exact ⟨by decide, by decide⟩
  have hother {c : Char} (hdigit : c.isDigit = true) : c ≠ 'e' ∧ c ≠ '.' := by
    constructor <;> rintro rfl <;> cases hdigit
  rw [hsigned]
  constructor
  · simp only [List.mem_append, List.mem_cons, not_or]
    exact ⟨fun hmem => (hother (hwhole _ hmem)).2 rfl, by decide, hdot.symm,
      fun hmem => (hother (hdigits _ hmem)).2 rfl⟩
  · rw [List.flatMap_append, flatMap_pointedChar fun c hc =>
      (hother (hwhole c hc)).1, List.flatMap_cons, List.flatMap_cons, hsign,
      flatMap_pointedChar fun c hc => (hother (hdigits c hc)).1]
    rfl

/-- Every finite float is written with a point. -/
theorem exists_floatText (negative : Bool) (position : Fin (2047 * 2 ^ 52)) :
    ∃ unsigned whole fraction exponent,
      Pointed unsigned whole fraction exponent ∧
      floatText (.finite negative position) =
        (if negative then '-' :: unsigned else unsigned) ∧
      ofDecimal false (digitsValue (whole ++ fraction))
      (exponent.getD 0 - fraction.length) =
        .finite false position := by
  obtain ⟨whole, fraction, exponent, hspelled, hvalue⟩ :=
    spelled_shortest position
  have htext : floatText (.finite negative position) =
      if (if negative then '-' :: (shortest position).text
        else (shortest position).text).contains '.'
      then if negative then '-' :: (shortest position).text
        else (shortest position).text
      else (if negative then '-' :: (shortest position).text
        else (shortest position).text).flatMap pointedChar := by
    simp only [floatText, Binary64.text, signed, String.toList_ofList]
    rfl
  rw [htext]
  by_cases hpoint : fraction = []
  · subst hpoint
    -- Without a fraction there is an exponent, and the point is put in front of
    -- it.
    obtain ⟨written, rfl⟩ : ∃ written, exponent = some written := by
      have hfloat := hspelled.float
      cases exponent with
      | none => cases hfloat
      | some written => exact ⟨written, rfl⟩
    have hplain : (shortest position).text = whole ++ exponentText written :=
      hspelled.text
    obtain ⟨hnone, hshown⟩ :=
      flatMap_pointedChar_exponent hspelled.digits written
    rw [← hplain] at hnone hshown
    refine ⟨whole ++ '.' :: '0' :: exponentText written, whole, ['0'],
      some written,
      ⟨⟨rfl, hspelled.ne_nil, hspelled.digits, hspelled.lead, by decide, rfl⟩,
        by simp⟩, ?_, ?_⟩
    · rw [if_neg]
      · cases negative with
        | false => exact hshown
        | true => exact congrArg ('-' :: ·) hshown
      · cases negative <;> simpa using hnone
    · rw [← hvalue false, List.append_nil]
      simpa using ofDecimal_append_zero false whole written
  · have hdot : '.' ∈ (shortest position).text := by
      rw [hspelled.text]
      simp [hpoint]
    refine ⟨_, whole, fraction, exponent, ⟨hspelled, hpoint⟩, if_pos ?_,
      hvalue false⟩
    cases negative <;> simp [hdot]

theorem isAtom_float (value : Binary64) :
    IsAtom (floatText value) .float (.float value) := by
  cases value with
  | nan => exact ⟨by decide, by decide, by decide, by decide⟩
  | infinite negative =>
      cases negative with
      | false => exact ⟨by decide, by decide, by decide, by decide⟩
      | true => exact ⟨by decide, by decide, by decide, by decide⟩
  | finite negative position =>
      obtain ⟨unsigned, whole, fraction, exponent, hpointed, htext, hvalue⟩ :=
        exists_floatText negative position
      have hnumeral := hpointed.numeral negative
      have hfloat := hpointed.isFloat negative
      rw [htext]
      refine ⟨hnumeral.allowsPlain, hnumeral.ne_nil, ?_, ?_⟩
      · rw [hnumeral.ofPlain_eq (by rw [hfloat, Bool.true_or]), if_pos hfloat]
      · rw [Graph.readAtom, hpointed.readFloatNode_eq negative hvalue]
        rfl

end Fragments.Yaml
