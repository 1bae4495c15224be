import Fragments.Json.Reader
import Fragments.Json.Writer
import Fragments.Proofs.Number.Digits
import Fragments.Proofs.Number.Shortest
import Mathlib.Data.List.TakeDrop

namespace Fragments.Json

open Binary64

def EndsDigits (rest : List Char) : Prop :=
  ∀ c, rest.head? = some c → c.isDigit = false

def EndsNumber (rest : List Char) : Prop :=
  ∀ c, rest.head? = some c → c.isDigit = false ∧ c ≠ '.' ∧ c ≠ 'e' ∧ c ≠ 'E'

theorem EndsNumber.endsDigits {rest : List Char} (hrest : EndsNumber rest) :
    EndsDigits rest :=
  fun c hhead => (hrest c hhead).1

theorem endsDigits_cons {c : Char} (hc : c.isDigit = false) (rest : List Char) :
    EndsDigits (c :: rest) := by
  intro other hhead
  cases hhead
  exact hc

section

variable {digits rest : List Char}

theorem span_append {p : Char → Bool} (hdigits : ∀ c ∈ digits, p c = true)
    (hrest : ∀ c, rest.head? = some c → p c = false) :
    (digits ++ rest).span p = (digits, rest) := by
  rw [List.span_eq_takeWhile_dropWhile, List.takeWhile_append_of_pos hdigits,
    List.dropWhile_append_of_pos hdigits]
  cases rest with
  | nil => simp
  | cons c more =>
      have hc := hrest c rfl
      simp [hc]

theorem wholePart?_append (hne : digits ≠ [])
    (hdigits : ∀ c ∈ digits, c.isDigit = true)
    (hlead : digits = ['0'] ∨ digits.head? ≠ some '0')
    (hrest : EndsDigits rest) :
    wholePart? (digits ++ rest) = some (digits, rest) := by
  rcases hlead with rfl | hlead
  · rfl
  · cases digits with
    | nil => exact absurd rfl hne
    | cons c more =>
        have hspan := span_append (p := isDigit) hdigits hrest
        have hc : isDigit c = true := hdigits c List.mem_cons_self
        rw [List.cons_append] at hspan ⊢
        unfold wholePart?
        split
        · next heq =>
            cases heq
            exact absurd rfl hlead
        · next heq =>
            cases heq
            rw [if_pos hc, hspan]
        · next heq => cases heq

theorem fractionPart_append (hne : digits ≠ [])
    (hdigits : ∀ c ∈ digits, c.isDigit = true) (hrest : EndsDigits rest) :
    fractionPart ('.' :: (digits ++ rest)) = (digits, rest) := by
  rw [fractionPart, span_append (p := isDigit) hdigits hrest]
  cases digits with
  | nil => exact absurd rfl hne
  | cons c more => rfl

theorem fractionPart_of_ne (hrest : rest.head? ≠ some '.') :
    fractionPart rest = ([], rest) := by
  cases rest with
  | nil => rfl
  | cons c more =>
      unfold fractionPart
      split
      · next heq =>
          cases heq
          exact absurd rfl hrest
      · rfl

theorem exponentPart_of_ne (hsmall : rest.head? ≠ some 'e')
    (hlarge : rest.head? ≠ some 'E') :
    exponentPart rest = (none, rest) := by
  cases rest with
  | nil => rfl
  | cons c more =>
      have hc : (c == 'e' || c == 'E') = false := by
        simp only [List.head?_cons, ne_eq, Option.some.injEq] at hsmall hlarge
        simp [hsmall, hlarge]
      rw [exponentPart]
      simp only [hc, Bool.false_eq_true, if_false]

theorem isDigit_iff (c : Char) : c.isDigit = true ↔ '0' ≤ c ∧ c ≤ '9' := by
  simp only [Char.isDigit, Bool.and_eq_true, decide_eq_true_eq]
  exact Iff.rfl

theorem digitIn?_eq (c : Char) :
    Number.digitIn? 10 c = if c.isDigit then some (c.toNat - '0'.toNat)
      else none := by
  unfold Number.digitIn?
  by_cases hdigit : '0' ≤ c ∧ c ≤ '9'
  · have hsmall : c.toNat - '0'.toNat < 10 := by
      have hle : c.toNat ≤ '9'.toNat := hdigit.2
      have hnine : '9'.toNat = 57 := rfl
      have hzero : '0'.toNat = 48 := rfl
      omega
    rw [if_pos ((isDigit_iff c).mpr hdigit)]
    simp only [if_pos hdigit, if_pos hsmall]
  · rw [if_neg (mt (isDigit_iff c).mp hdigit)]
    simp only [if_neg hdigit]
    refine if_neg ?_
    split
    · omega
    · split <;> omega

theorem digitRun_append (hdigits : ∀ c ∈ digits, c.isDigit = true)
    (hrest : EndsDigits rest) :
    Number.digitRun 10 (digits ++ rest) =
      (digits.map (·.toNat - '0'.toNat), rest) := by
  induction digits with
  | nil =>
      cases rest with
      | nil => rfl
      | cons c more =>
          have hc := hrest c rfl
          simp [Number.digitRun, digitIn?_eq, hc]
  | cons c more ih =>
      have hc := hdigits c List.mem_cons_self
      have ih := ih fun other hmem =>
        hdigits other (List.mem_cons_of_mem _ hmem)
      simp [Number.digitRun, digitIn?_eq, hc, ih]

end

theorem digitsValue_eq (digits : List Char) :
    digitsValue digits = Nat.ofDigitChars 10 digits 0 := by
  unfold digitsValue Number.ofDigits Nat.ofDigitChars
  rw [List.foldl_map]
  congr 1
  funext total c
  rw [Nat.mul_comm]

theorem isDigit_of_mem_toDigits {n : Nat} {c : Char}
    (hmem : c ∈ Nat.toDigits 10 n) :
    c.isDigit = true :=
  Nat.isDigit_of_mem_toDigits (by decide) (by decide) hmem

theorem signed_natAbs (n : Int) :
    (if n < 0 then -(n.natAbs : Int) else n.natAbs) = n := by
  split <;> omega

theorem signOf_signed (n : Int) (chars : List Char) :
    Number.signOf ((if n < 0 then '-' else '+') :: chars) =
      (decide (n < 0), chars) := by
  by_cases hnegative : n < 0
  · rw [if_pos hnegative, decide_eq_true hnegative]
    rfl
  · rw [if_neg hnegative, decide_eq_false hnegative]
    rfl

theorem exists_exponentText (exponent : Int) :
    ∃ digits : List Char, (∀ c ∈ digits, c.isDigit = true) ∧ digits ≠ [] ∧
      digitsValue digits = exponent.natAbs ∧
      exponentText exponent = 'e' :: (if exponent < 0 then '-' else '+') ::
      digits := by
  have hvalue : Nat.ofDigitChars 10 (Nat.toDigits 10 exponent.natAbs) 0 =
      exponent.natAbs :=
    Nat.ofDigitChars_ten_toDigits
  by_cases hshort : (Nat.toDigits 10 exponent.natAbs).length < 2
  · refine ⟨'0' :: Nat.toDigits 10 exponent.natAbs, ?_,
      List.cons_ne_nil _ _, ?_, ?_⟩
    · intro c hmem
      rcases List.mem_cons.mp hmem with rfl | hmem
      · rfl
      · exact isDigit_of_mem_toDigits hmem
    · rw [digitsValue_eq, Nat.ofDigitChars_cons]
      exact hvalue
    · simp only [exponentText, if_pos hshort]
      rfl
  · refine ⟨Nat.toDigits 10 exponent.natAbs, fun c => isDigit_of_mem_toDigits,
      Nat.toDigits_ne_nil, by rw [digitsValue_eq, hvalue], ?_⟩
    simp only [exponentText, if_neg hshort]
    rfl

theorem exponentPart_exponentText (exponent : Int) {rest : List Char}
    (hrest : EndsDigits rest) :
    exponentPart (exponentText exponent ++ rest) = (some exponent, rest) := by
  obtain ⟨digits, hdigits, hne, hvalue, htext⟩ := exists_exponentText exponent
  have hrun := digitRun_append hdigits hrest
  rw [htext, List.cons_append, List.cons_append, exponentPart]
  simp only [beq_self_eq_true, Bool.true_or, if_true, signOf_signed, hrun]
  split
  · next hnil =>
      exact absurd (List.map_eq_nil_iff.mp (congrArg Prod.fst hnil)) hne
  · next heq =>
      cases heq
      have hnumber : Number.ofDigits 10 (digits.map (·.toNat - '0'.toNat)) =
          exponent.natAbs :=
        hvalue
      simp only [hnumber, decide_eq_true_eq, signed_natAbs]

/-- How the characters of a number without sign fall into parts. -/
def Parts (unsigned rest whole fraction : List Char)
    (exponent : Option Int) : Prop :=
  ∃ afterWhole afterFraction, wholePart? unsigned = some (whole, afterWhole) ∧
    fractionPart afterWhole = (fraction, afterFraction) ∧
    exponentPart afterFraction = (exponent, rest)

theorem Parts.head?_ne {unsigned rest whole fraction : List Char}
    {exponent : Option Int}
    (hparts : Parts unsigned rest whole fraction exponent) :
    unsigned.head? ≠ some '-' := by
  obtain ⟨afterWhole, -, hwhole, -⟩ := hparts
  cases unsigned with
  | nil => simp
  | cons c more =>
      intro hhead
      cases hhead
      have hnone : wholePart? ('-' :: more) = none := rfl
      rw [hnone] at hwhole
      cases hwhole

theorem readNumber?_eq (negative : Bool)
    {unsigned rest whole fraction : List Char} {exponent : Option Int}
    (hparts : Parts unsigned rest whole fraction exponent) :
    readNumber? (if negative then '-' :: unsigned else unsigned) =
      if fraction.isEmpty && exponent.isNone then
        if whole.length > Number.digitLimit then
          some (.error (Number.tooManyDigits whole.length), rest)
        else
          some (.ok
            (.int (if negative then -(digitsValue whole : Int)
              else digitsValue whole)), rest)
      else
        some (.ok (.float (.ofDecimal negative (digitsValue (whole ++ fraction))
          (exponent.getD 0 - fraction.length))), rest) := by
  have hunsigned := hparts.head?_ne
  obtain ⟨afterWhole, afterFraction, hwhole, hfraction, hexponent⟩ := hparts
  cases negative with
  | true =>
      rw [if_pos rfl]
      unfold readNumber?
      simp only [hwhole, Option.bind_eq_bind, Option.bind_some,
        hfraction, hexponent]
  | false =>
      rw [if_neg (by decide)]
      unfold readNumber?
      split
      next sign unsplit heq =>
        split at heq
        · exact absurd rfl hunsigned
        · cases heq
          simp only [hwhole, Option.bind_eq_bind, Option.bind_some,
            hfraction, hexponent]

section

variable {whole fraction rest : List Char}

theorem parts_whole (hne : whole ≠ []) (hdigits : ∀ c ∈ whole, c.isDigit = true)
    (hlead : whole = ['0'] ∨ whole.head? ≠ some '0') (hrest : EndsNumber rest) :
    Parts (whole ++ rest) rest whole [] none :=
  ⟨rest, rest, wholePart?_append hne hdigits hlead hrest.endsDigits,
    fractionPart_of_ne fun hhead => (hrest _ hhead).2.1 rfl,
    exponentPart_of_ne (fun hhead => (hrest _ hhead).2.2.1 rfl)
      fun hhead => (hrest _ hhead).2.2.2 rfl⟩

theorem parts_point (hne : whole ≠ []) (hdigits : ∀ c ∈ whole, c.isDigit = true)
    (hlead : whole = ['0'] ∨ whole.head? ≠ some '0') (hfne : fraction ≠ [])
    (hfraction : ∀ c ∈ fraction, c.isDigit = true) (hrest : EndsNumber rest) :
    Parts (whole ++ '.' :: (fraction ++ rest)) rest whole fraction none :=
  ⟨_, rest, wholePart?_append hne hdigits hlead (endsDigits_cons rfl _),
    fractionPart_append hfne hfraction hrest.endsDigits,
    exponentPart_of_ne (fun hhead => (hrest _ hhead).2.2.1 rfl)
      fun hhead => (hrest _ hhead).2.2.2 rfl⟩

theorem head?_exponentText (exponent : Int) (rest : List Char) :
    (exponentText exponent ++ rest).head? = some 'e' :=
  rfl

theorem endsDigits_exponentText (exponent : Int) (rest : List Char) :
    EndsDigits (exponentText exponent ++ rest) :=
  endsDigits_cons rfl _

theorem parts_exponent (hne : whole ≠ [])
    (hdigits : ∀ c ∈ whole, c.isDigit = true)
    (hlead : whole = ['0'] ∨ whole.head? ≠ some '0') (exponent : Int)
    (hrest : EndsNumber rest) :
    Parts (whole ++ (exponentText exponent ++ rest)) rest whole []
    (some exponent) :=
  ⟨_, _, wholePart?_append hne hdigits hlead
    (endsDigits_exponentText exponent rest),
    fractionPart_of_ne (by rw [head?_exponentText]; decide),
    exponentPart_exponentText exponent hrest.endsDigits⟩

theorem parts_point_exponent (hne : whole ≠ [])
    (hdigits : ∀ c ∈ whole, c.isDigit = true)
    (hlead : whole = ['0'] ∨ whole.head? ≠ some '0') (hfne : fraction ≠ [])
    (hfraction : ∀ c ∈ fraction, c.isDigit = true) (exponent : Int)
    (hrest : EndsNumber rest) :
    Parts (whole ++ '.' :: (fraction ++ (exponentText exponent ++ rest))) rest
      whole fraction (some exponent) :=
  ⟨_, _, wholePart?_append hne hdigits hlead (endsDigits_cons rfl _),
    fractionPart_append hfne hfraction (endsDigits_exponentText exponent rest),
    exponentPart_exponentText exponent hrest.endsDigits⟩

end

theorem toList_toString (n : Int) :
    (toString n).toList =
      if decide (n < 0) then '-' :: Nat.toDigits 10 n.natAbs
        else Nat.toDigits 10 n.natAbs := by
  cases n with
  | ofNat m =>
      have hnonneg : decide (Int.ofNat m < 0) = false :=
        decide_eq_false (by simp)
      rw [hnonneg]
      exact Nat.toList_repr
  | negSucc m =>
      have hnegative : decide (Int.negSucc m < 0) = true :=
        decide_eq_true (Int.negSucc_lt_zero m)
      rw [hnegative]
      have hlist : ("-" ++ Nat.repr (m + 1)).toList =
          '-' :: Nat.toDigits 10 (m + 1) := by
        rw [String.toList_append, Nat.toList_repr]
        rfl
      exact hlist

theorem readNumber?_int {n : Int}
    (hfits : digitCount n.natAbs ≤ Number.digitLimit) {rest : List Char}
    (hrest : EndsNumber rest) :
    readNumber? ((toString n).toList ++ rest) = some (.ok (.int n), rest) := by
  have hdigits : ∀ c ∈ Nat.toDigits 10 n.natAbs, c.isDigit = true := fun c =>
    isDigit_of_mem_toDigits
  have hlead : Nat.toDigits 10 n.natAbs = ['0'] ∨
      (Nat.toDigits 10 n.natAbs).head? ≠ some '0' := by
    rcases Nat.eq_zero_or_pos n.natAbs with hzero | hpositive
    · exact Or.inl (by rw [hzero, Nat.toDigits_zero])
    · exact Or.inr (head?_toDigits_ne hpositive)
  have hread := readNumber?_eq (decide (n < 0))
    (parts_whole Nat.toDigits_ne_nil hdigits hlead hrest)
  have hvalue : digitsValue (Nat.toDigits 10 n.natAbs) = n.natAbs := by
    rw [digitsValue_eq, Nat.ofDigitChars_ten_toDigits]
  have hsigned :
      (if decide (n < 0) = true then -(n.natAbs : Int) else n.natAbs) = n := by
    simp only [decide_eq_true_eq, signed_natAbs]
  have hplain : (([] : List Char).isEmpty && (none : Option Int).isNone) =
      true := rfl
  have hshort : ¬(Nat.toDigits 10 n.natAbs).length > Number.digitLimit :=
    Nat.not_lt.mpr hfits
  rw [hvalue, hsigned, if_pos hplain, if_neg hshort] at hread
  rw [toList_toString, ← hread]
  split <;> rfl

/-- What digits are like that neither start nor end with needless zeros. -/
structure Significant (digits : List Char) : Prop where
  ne_nil : digits ≠ []
  lead : digits.head? ≠ some '0'
  isDigit : ∀ c ∈ digits, c.isDigit = true
  pos : 0 < digitsValue digits

theorem significant_trimZeros {n : Nat} (hn : 0 < n) :
    Significant (trimZeros (Nat.toDigits 10 n)) := by
  obtain ⟨hne, hlead, hdigits, count, hvalue, -⟩ := trimZeros_toDigits hn
  refine ⟨hne, hlead, hdigits, Nat.pos_of_ne_zero fun hzero => ?_⟩
  rw [← digitsValue_eq, hzero, Nat.zero_mul] at hvalue
  omega

theorem ofDecimal_trimZeros {n : Nat} (hn : 0 < n) (negative : Bool)
    (point : Int) :
    ofDecimal negative (digitsValue (trimZeros (Nat.toDigits 10 n)))
        (point - (trimZeros (Nat.toDigits 10 n)).length) =
      ofDecimal negative n (point - digitCount n) := by
  obtain ⟨-, -, -, count, hvalue, hcount⟩ := trimZeros_toDigits hn
  have hpos := (significant_trimZeros hn).pos
  rw [← digitsValue_eq] at hvalue
  generalize trimZeros (Nat.toDigits 10 n) = kept at *
  have hexponent : point - (kept.length : Int) = point - digitCount n +
      count := by omega
  rw [hexponent, ← ofDecimal_mul_pow hpos, ← hvalue]

theorem digitsValue_zeros_append (count : Nat) (digits : List Char) :
    digitsValue (List.replicate count '0' ++ digits) = digitsValue digits := by
  rw [digitsValue_eq, digitsValue_eq, Nat.ofDigitChars_append,
    Nat.ofDigitChars_replicate_zero, Nat.mul_zero]

theorem digitsValue_append_zeros (digits : List Char) (count : Nat) :
    digitsValue (digits ++ List.replicate count '0') = digitsValue digits *
    10 ^ count := by
  rw [digitsValue_eq, digitsValue_eq, Nat.ofDigitChars_append,
    Nat.ofDigitChars_replicate_zero, Nat.mul_comm]

theorem isDigit_of_mem_zeros {count : Nat} {c : Char}
    (hmem : c ∈ List.replicate count '0') :
    c.isDigit = true := by
  rw [List.eq_of_mem_replicate hmem]
  rfl

/-- How the text of a float is made up: digits, perhaps more of them behind a
point, perhaps an exponent. -/
structure Spelled (unsigned whole fraction : List Char)
    (exponent : Option Int) : Prop where
  text : unsigned =
    whole ++ ((if fraction.isEmpty then [] else '.' :: fraction) ++
      exponent.elim [] exponentText)
  ne_nil : whole ≠ []
  digits : ∀ c ∈ whole, c.isDigit = true
  lead : whole = ['0'] ∨ whole.head? ≠ some '0'
  behind : ∀ c ∈ fraction, c.isDigit = true
  float : (fraction.isEmpty && exponent.isNone) = false

theorem Spelled.parts {unsigned whole fraction rest : List Char}
    {exponent : Option Int}
    (hspelled : Spelled unsigned whole fraction exponent)
    (hrest : EndsNumber rest) :
    Parts (unsigned ++ rest) rest whole fraction exponent := by
  obtain ⟨rfl, hne, hdigits, hlead, hfraction, -⟩ := hspelled
  cases fraction with
  | nil =>
      cases exponent with
      | none => simpa using parts_whole hne hdigits hlead hrest
      | some exponent =>
          simpa using parts_exponent hne hdigits hlead exponent hrest
  | cons c more =>
      have hsome : c :: more ≠ [] := List.cons_ne_nil c more
      cases exponent with
      | none => simpa using parts_point hne hdigits hlead hsome hfraction hrest
      | some exponent =>
          simpa using parts_point_exponent hne hdigits hlead hsome hfraction
            exponent hrest

/-- Whether a text without sign is that of a float, the one with these digits
and this exponent. -/
def SpellsFloat (unsigned : List Char) (digits : Nat) (exponent : Int) : Prop :=
  ∃ whole fraction written, Spelled unsigned whole fraction written ∧
    ∀ negative, ofDecimal negative (digitsValue (whole ++ fraction))
      (written.getD 0 - fraction.length) = ofDecimal negative digits exponent

section

variable {kept : List Char} {point : Int}

theorem spellsFloat_below (hkept : Significant kept) (count : Nat) :
    SpellsFloat ('0' :: '.' :: List.replicate count '0' ++ kept)
    (digitsValue kept)
      (-count - kept.length) := by
  have hsome : List.replicate count '0' ++ kept ≠ [] :=
    List.append_ne_nil_of_right_ne_nil _ hkept.ne_nil
  refine ⟨List.replicate 1 '0', List.replicate count '0' ++ kept, none,
    ⟨?_, List.cons_ne_nil _ _, fun c => isDigit_of_mem_zeros, .inl rfl,
      fun c hmem => ?_, ?_⟩,
    fun negative => ?_⟩
  · simp [hkept.ne_nil]
  · rcases List.mem_append.mp hmem with hzero | hmem
    · exact isDigit_of_mem_zeros hzero
    · exact hkept.isDigit c hmem
  · simp [hkept.ne_nil]
  · rw [digitsValue_zeros_append, digitsValue_zeros_append, List.length_append,
      List.length_replicate, Option.getD_none]
    congr 1
    omega

theorem spellsFloat_above (hkept : Significant kept) (count : Nat) :
    SpellsFloat (kept ++ List.replicate count '0' ++ ['.', '0'])
    (digitsValue kept) count := by
  refine ⟨kept ++ List.replicate count '0', List.replicate 1 '0', none,
    ⟨by
      simp, List.append_ne_nil_of_left_ne_nil hkept.ne_nil _, fun c hmem =>
        ?_, .inr ?_, fun c => isDigit_of_mem_zeros, rfl⟩, fun negative => ?_⟩
  · rcases List.mem_append.mp hmem with hmem | hzero
    · exact hkept.isDigit c hmem
    · exact isDigit_of_mem_zeros hzero
  · rw [List.head?_append_of_ne_nil _ hkept.ne_nil]
    exact hkept.lead
  · rw [digitsValue_append_zeros, digitsValue_append_zeros,
      Nat.mul_assoc, ← Nat.pow_add, ofDecimal_mul_pow hkept.pos,
      Option.getD_none, List.length_replicate]
    congr 1
    omega

theorem head?_take (hkept : Significant kept) {count : Nat}
    (hcount : 0 < count) :
    kept.take count ≠ [] ∧ (kept.take count).head? ≠ some '0' := by
  have hlead := hkept.lead
  cases kept with
  | nil => exact absurd rfl hkept.ne_nil
  | cons c more =>
      cases count with
      | zero => cases hcount
      | succ count => exact ⟨List.cons_ne_nil _ _, hlead⟩

theorem drop_ne_nil {count : Nat} (hfew : count < kept.length) :
    kept.drop count ≠ [] := by
  intro hnil
  rw [List.drop_eq_nil_iff] at hnil
  omega

theorem spellsFloat_inside (hkept : Significant kept) {count : Nat}
    (hcount : 0 < count) (hfew : count < kept.length) :
    SpellsFloat (kept.take count ++ '.' :: kept.drop count) (digitsValue kept)
      (count - kept.length) := by
  obtain ⟨hne, hlead⟩ := head?_take hkept hcount
  have hdrop := drop_ne_nil hfew
  refine ⟨kept.take count, kept.drop count, none,
    ⟨by
      simp [hdrop], hne, fun c hmem =>
        hkept.isDigit c (List.mem_of_mem_take hmem), .inr hlead, fun c hmem =>
          hkept.isDigit c (List.mem_of_mem_drop hmem), by simp [hdrop]⟩,
    fun negative => ?_⟩
  rw [List.take_append_drop, List.length_drop, Option.getD_none]
  congr 1
  omega

theorem spellsFloat_exponent (hkept : Significant kept) (exponent : Int) :
    SpellsFloat (kept.take 1 ++
      (if kept.length = 1 then [] else '.' :: kept.drop 1) ++
      exponentText exponent) (digitsValue kept)
      (exponent + 1 - kept.length) := by
  obtain ⟨hne, hlead⟩ := head?_take hkept Nat.one_pos
  have hlength := List.length_pos_of_ne_nil hkept.ne_nil
  have hempty : (kept.drop 1).isEmpty = true ↔ kept.length = 1 := by
    rw [List.isEmpty_iff, List.drop_eq_nil_iff]
    omega
  refine ⟨kept.take 1, kept.drop 1, some exponent,
    ⟨?_, hne, fun c hmem => hkept.isDigit c (List.mem_of_mem_take hmem),
      .inr hlead, fun c hmem => hkept.isDigit c (List.mem_of_mem_drop hmem), by
        simp⟩, fun negative => ?_⟩
  · simp only [hempty, List.append_assoc, Option.elim_some]
  · rw [List.take_append_drop, List.length_drop, Option.getD_some]
    congr 1
    omega

end

theorem spellsFloat_text {d : Decimal} (hpos : 0 < d.digits) :
    SpellsFloat d.text (digitsValue (trimZeros (Nat.toDigits 10 d.digits)))
      (d.point - (trimZeros (Nat.toDigits 10 d.digits)).length) := by
  have hkept := significant_trimZeros hpos
  unfold Decimal.text
  generalize trimZeros (Nat.toDigits 10 d.digits) = kept at *
  simp only
  split
  · next hbelow =>
      have hpoint : d.point = -((-d.point).toNat : Int) := by omega
      have hspells := spellsFloat_below hkept (-d.point).toNat
      rwa [← hpoint] at hspells
  · split
    · next hplain =>
        split
        · next hfew =>
            have hpoint : d.point - kept.length =
                ((d.point.toNat - kept.length : Nat) : Int) := by
              omega
            rw [hpoint]
            exact spellsFloat_above hkept _
        · next hmany =>
            have hpoint : d.point = (d.point.toNat : Int) := by omega
            have hspells :=
              spellsFloat_inside hkept (show 0 < d.point.toNat by omega)
                (Nat.lt_of_not_le hmany)
            rwa [← hpoint] at hspells
    · have hspells := spellsFloat_exponent hkept (d.point - 1)
      rwa [Int.sub_add_cancel] at hspells

theorem ofDecimal_shortest {position : Nat} (hpositive : 0 < position)
    (hposition : position < 2047 * 2 ^ 52) (negative : Bool) :
    ofDecimal negative
      (digitsValue (trimZeros (Nat.toDigits 10 (shortest position).digits)))
        ((shortest position).point -
          (trimZeros (Nat.toDigits 10 (shortest position).digits)).length) =
      ofPosition negative position := by
  have hreads := shortest_readsAs hpositive hposition
  have hdigits := digits_pos_of_readsAs hpositive hposition hreads
  rw [ofDecimal_trimZeros hdigits, ← ofDecimal_withSign, ← ofPosition_withSign]
  rw [Decimal.readsAs, beq_iff_eq] at hreads
  rw [← hreads]
  rfl

theorem spelled_shortest (position : Fin (2047 * 2 ^ 52)) :
    ∃ whole fraction written,
      Spelled (shortest position).text whole fraction written ∧
      ∀ negative, ofDecimal negative (digitsValue (whole ++ fraction))
        (written.getD 0 - fraction.length) = .finite negative position := by
  obtain ⟨position, hposition⟩ := position
  have hfinite : ∀ negative,
      ofPosition negative position = .finite negative ⟨position, hposition⟩ :=
    fun negative => dif_pos hposition
  rcases Nat.eq_zero_or_pos position with rfl | hpositive
  · have hzero : ∀ c ∈ ['0'], c.isDigit = true :=
      List.forall_mem_singleton.mpr rfl
    have htext : (shortest 0).text = ['0'] ++ ['.', '0'] := by decide
    exact ⟨['0'], ['0'], none,
      ⟨htext, List.cons_ne_nil _ _, hzero, .inl rfl, hzero, rfl⟩,
      fun negative => (if_pos rfl).trans (hfinite negative)⟩
  · have hreads := shortest_readsAs hpositive hposition
    obtain ⟨whole, fraction, written, hspelled, hvalue⟩ :=
      spellsFloat_text (digits_pos_of_readsAs hpositive hposition hreads)
    exact ⟨whole, fraction, written, hspelled, fun negative =>
      (hvalue negative).trans
        ((ofDecimal_shortest hpositive hposition negative).trans
          (hfinite negative))⟩

theorem writeFloat_finite (negative : Bool) (position : Fin (2047 * 2 ^ 52)) :
    writeFloat (.finite negative position) =
      (Binary64.finite negative position).text :=
  rfl

theorem readNumber?_float (negative : Bool) (position : Fin (2047 * 2 ^ 52))
    {rest : List Char} (hrest : EndsNumber rest) :
    readNumber? ((writeFloat (.finite negative position)).toList ++ rest) =
      some (.ok (.float (.finite negative position)), rest) := by
  obtain ⟨whole, fraction, written, hspelled, hvalue⟩ :=
    spelled_shortest position
  have hread := readNumber?_eq negative (hspelled.parts hrest)
  rw [hvalue, if_neg (Bool.eq_false_iff.mp hspelled.float)] at hread
  rw [← hread, writeFloat_finite, Binary64.text, signed, String.toList_ofList]
  split <;> rfl

end Fragments.Json
