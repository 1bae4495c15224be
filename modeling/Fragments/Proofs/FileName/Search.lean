import Fragments.Proofs.FileName
import Mathlib.Data.List.Flatten

namespace Fragments

namespace FileName

/-- The ways to take characters that satisfy `p` off the front, the shortest
first, each with what it leaves. -/
def spans (p : Char → Bool) : List Char → List (List Char × List Char)
  | [] => [([], [])]
  | c :: rest =>
      ([], c :: rest) ::
        if p c then (spans p rest).map fun (taken, left) =>
          (c :: taken, left) else []

structure Match where
  name : List Char
  token : Option (List Char)
  written : List Char
  deriving DecidableEq

/-- The ways to read a type: after a dash, the longest first; then none at
all. -/
def tokens (chars : List Char) : List (Option (List Char) × List Char) :=
  let typed :=
    match chars with
    | '-' :: rest =>
        (spans (· != '-') rest).reverse.filterMap fun (taken, left) =>
          if taken.isEmpty then none else some (some taken, left)
    | _ => []
  typed ++ [(none, chars)]

/-- The ways to read a dot and an extension. -/
def endings : List Char → List (List Char × List Char)
  | '.' :: rest =>
      extensions.filterMap fun extension =>
        let written := rest.take extension.length
        if spellsWord extension written then
          some (written, rest.drop extension.length) else none
  | _ => []

/-- The end of a name, or the line feed before it. -/
def isEnd (chars : List Char) : Bool := chars.isEmpty || chars == ['\n']

/-- All ways to read a name in the order in which they are tried. -/
def ways (base : List Char) : List Match :=
  (spans (· != '\n') base).flatMap fun (name, afterName) =>
    (tokens afterName).flatMap fun (token, afterToken) =>
      (endings afterToken).filterMap fun (written, left) =>
        if isEnd left then some ⟨name, token, written⟩ else none

def stemOf (name : List Char) : Option (List Char) → List Char
  | some token => name ++ '-' :: token
  | none => name

variable {p : Char → Bool} {chars base taken left : List Char} {found : Match}

theorem mem_spans_iff :
    (taken, left) ∈ spans p chars ↔ chars = taken ++ left ∧
      ∀ c ∈ taken, p c = true := by
  induction chars generalizing taken with
  | nil =>
      rw [spans, List.mem_singleton, Prod.mk.injEq]
      constructor
      · rintro ⟨rfl, rfl⟩
        simp
      · rintro ⟨hchars, -⟩
        exact List.append_eq_nil_iff.mp hchars.symm
  | cons c rest ih =>
      rw [spans, List.mem_cons]
      cases taken with
      | nil =>
          have hlonger : ([], left) ∉
              if p c then (spans p rest).map fun (own, after) =>
                (c :: own, after) else [] := by
            split <;> simp
          rw [or_iff_left hlonger, Prod.mk.injEq]
          exact ⟨fun ⟨_, heq⟩ => ⟨heq.symm, by simp⟩, fun ⟨heq, _⟩ =>
            ⟨rfl, heq.symm⟩⟩
      | cons first more =>
          by_cases hc : p c
          · simp only [hc, if_true, List.mem_map, Prod.exists, Prod.mk.injEq,
              List.cons.injEq, reduceCtorEq, false_and, false_or,
              List.cons_append, List.mem_cons, forall_eq_or_imp]
            constructor
            · rintro ⟨own, after, hmem, ⟨rfl, rfl⟩, rfl⟩
              obtain ⟨hrest, hall⟩ := ih.mp hmem
              exact ⟨⟨rfl, hrest⟩, hc, hall⟩
            · rintro ⟨⟨rfl, hrest⟩, -, hall⟩
              exact ⟨more, left, ih.mpr ⟨hrest, hall⟩, ⟨rfl, rfl⟩, rfl⟩
          · simp only [hc, Bool.false_eq_true, if_false, List.not_mem_nil,
              or_false, Prod.mk.injEq, reduceCtorEq, false_and, false_iff,
              not_and, List.cons_append, List.cons.injEq]
            rintro ⟨rfl, -⟩ hall
            exact hc (hall c List.mem_cons_self)

theorem pairwise_spans : (spans p chars).Pairwise fun one other =>
    one.1.length ≤ other.1.length := by
  induction chars with
  | nil => exact List.pairwise_singleton _ _
  | cons c rest ih =>
      rw [spans, List.pairwise_cons]
      refine ⟨fun _ _ => Nat.zero_le _, ?_⟩
      split
      · exact List.pairwise_map.mpr (ih.imp fun hle => Nat.succ_le_succ hle)
      · exact List.Pairwise.nil

theorem mem_tokens_iff {token : Option (List Char)} :
    (token, left) ∈ tokens chars ↔
      (token = none ∧ left = chars) ∨
        ∃ own, token = some own ∧ own ≠ [] ∧ '-' ∉ own ∧
          chars = '-' :: (own ++ left) := by
  unfold tokens
  dsimp only
  rw [List.mem_append, List.mem_singleton, Prod.mk.injEq, or_comm]
  refine or_congr_right ?_
  split
  · next rest =>
      simp only [List.mem_filterMap, List.mem_reverse, Prod.exists,
        mem_spans_iff, Option.ite_none_left_eq_some, List.isEmpty_iff,
        Option.some.injEq, Prod.mk.injEq, List.cons.injEq, true_and]
      constructor
      · rintro ⟨own, after, ⟨rfl, hdash⟩, hnonempty, rfl, rfl⟩
        exact ⟨own, rfl, hnonempty, fun hmem => by
          simpa using hdash _ hmem, rfl⟩
      · rintro ⟨own, rfl, hnonempty, hdash, rfl⟩
        exact ⟨own, left,
          ⟨rfl, fun c hc => by simpa using ne_of_mem_of_not_mem hc hdash⟩,
          hnonempty, rfl, rfl⟩
  · next hother =>
      refine iff_of_false List.not_mem_nil ?_
      rintro ⟨own, -, -, -, rfl⟩
      exact hother _ rfl

theorem mem_endings_iff {written : List Char} :
    (written, left) ∈ endings chars ↔
      chars = '.' :: (written ++ left) ∧
        ∃ extension ∈ extensions, spellsWord extension written = true := by
  unfold endings
  split
  · next rest =>
      simp only [List.mem_filterMap, Option.ite_none_right_eq_some,
        Option.some.injEq, Prod.mk.injEq, List.cons.injEq, true_and]
      constructor
      · rintro ⟨extension, hknown, hspells, rfl, rfl⟩
        exact ⟨(List.take_append_drop _ rest).symm, extension, hknown, hspells⟩
      · rintro ⟨rfl, extension, hknown, hspells⟩
        have hlength := length_of_spellsWord hspells
        refine ⟨extension, hknown, ?_⟩
        simp only [List.take_left' hlength, List.drop_left' hlength,
          hspells, and_self]
  · next hother =>
      refine iff_of_false List.not_mem_nil ?_
      rintro ⟨rfl, -⟩
      exact hother _ rfl

theorem isEnd_iff : isEnd chars = true ↔ chars = [] ∨ chars = ['\n'] := by
  simp [isEnd]

theorem pairwise_ways : (ways base).Pairwise fun one other =>
    one.name.length ≤ other.name.length := by
  rw [ways, List.pairwise_flatMap]
  constructor
  · rintro ⟨name, afterName⟩ -
    refine List.pairwise_of_forall_mem_list ?_
    simp only [List.mem_flatMap, List.mem_filterMap,
      Option.ite_none_right_eq_some, Option.some.injEq, Prod.exists]
    rintro _ ⟨_, _, -, _, _, -, -, rfl⟩ _ ⟨_, _, -, _, _, -, -, rfl⟩
    exact Nat.le_refl _
  · refine pairwise_spans.imp ?_
    rintro ⟨name, afterName⟩ ⟨other, afterOther⟩ hle
    simp only [List.mem_flatMap, List.mem_filterMap,
      Option.ite_none_right_eq_some, Option.some.injEq, Prod.exists]
    rintro _ ⟨_, _, -, _, _, -, -, rfl⟩ _ ⟨_, _, -, _, _, -, -, rfl⟩
    exact hle

theorem length_name_le_of_mem {first : Match} {rest : List Match}
    (hways : ways base = first :: rest) (hfound : found ∈ ways base) :
    first.name.length ≤ found.name.length := by
  have hordered : (ways base).Pairwise fun one other =>
    one.name.length ≤ other.name.length :=
    pairwise_ways
  rw [hways, List.pairwise_cons] at hordered
  rw [hways] at hfound
  rcases List.mem_cons.mp hfound with rfl | hlater
  · exact Nat.le_refl _
  · exact hordered.1 found hlater

theorem exists_eq_dropFinalNewline_append (base : List Char) :
    ∃ left, isEnd left = true ∧ base = dropFinalNewline base ++ left := by
  by_cases hlast : base.getLast? = some '\n'
  · refine ⟨['\n'], rfl, ?_⟩
    obtain ⟨front, rfl⟩ := List.getLast?_eq_some_iff.mp hlast
    rw [dropFinalNewline, if_pos hlast, List.dropLast_concat]
  · exact ⟨[], rfl, by rw [dropFinalNewline, if_neg hlast, List.append_nil]⟩

theorem dropFinalNewline_append {stem written : List Char}
    (hspells : ∃ extension ∈ extensions, spellsWord extension written = true)
    (hend : isEnd left = true) :
    dropFinalNewline (stem ++ '.' :: (written ++ left)) = stem ++
    '.' :: written := by
  obtain ⟨extension, hknown, hspells⟩ := hspells
  have hline : '\n' ∉ written :=
    not_mem_of_spells_extension hknown hspells (by simp)
  rcases isEnd_iff.mp hend with rfl | rfl
  · rw [List.append_nil, dropFinalNewline, if_neg]
    intro hlast
    have hmem : '\n' ∈ '.' :: written :=
      List.mem_of_getLast?
        (by simpa [List.getLast?_append, List.getLast?_cons] using hlast)
    simp [hline] at hmem
  · have hassoc : stem ++ '.' :: (written ++ ['\n']) =
        (stem ++ '.' :: written) ++ ['\n'] := by simp
    rw [hassoc, dropFinalNewline, List.getLast?_concat, if_pos rfl,
      List.dropLast_concat]

theorem mem_ways_iff :
    found ∈ ways base ↔
      splitExtension? (dropFinalNewline base) =
          some (stemOf found.name found.token, found.written) ∧
        '\n' ∉ found.name ∧ ∀ token, found.token = some token → token ≠ [] ∧
          '-' ∉ token := by
  obtain ⟨name, token, written⟩ := found
  simp only [ways, List.mem_flatMap, List.mem_filterMap, Prod.exists,
    mem_spans_iff, mem_tokens_iff, mem_endings_iff,
    Option.ite_none_right_eq_some, Option.some.injEq, Match.mk.injEq,
    splitExtension?_eq_some_iff]
  constructor
  · rintro ⟨own, afterName, ⟨rfl, hline⟩, type, afterToken, htype, rest, left,
      ⟨rfl, hspells⟩, hend, rfl, rfl, rfl⟩
    have hname : '\n' ∉ own := fun hmem => by simpa using hline _ hmem
    rcases htype with ⟨rfl, rfl⟩ | ⟨type, rfl, hnonempty, hdash, rfl⟩
    · exact ⟨⟨dropFinalNewline_append hspells hend, hspells⟩, hname, nofun⟩
    · have hassoc : own ++ '-' :: (type ++ '.' :: (rest ++ left)) =
          stemOf own (some type) ++ '.' :: (rest ++ left) := by simp [stemOf]
      refine ⟨⟨hassoc ▸ dropFinalNewline_append hspells hend, hspells⟩, hname,
        ?_⟩
      rintro _ ⟨⟩
      exact ⟨hnonempty, hdash⟩
  · rintro ⟨⟨hbase, hspells⟩, hline, htoken⟩
    obtain ⟨left, hend, hleft⟩ := exists_eq_dropFinalNewline_append base
    have hplain : ∀ c ∈ name, (c != '\n') = true := fun c hc => by
      simpa using ne_of_mem_of_not_mem hc hline
    have heq : base = stemOf name token ++ '.' :: (written ++ left) := by
      rw [hleft, hbase, List.append_assoc, List.cons_append]
    cases token with
    | none =>
        exact ⟨name, _, ⟨heq, hplain⟩, none, _, .inl ⟨rfl, rfl⟩, written, left,
          ⟨rfl, hspells⟩, hend, rfl, rfl, rfl⟩
    | some own =>
        obtain ⟨hnonempty, hdash⟩ := htoken own rfl
        exact ⟨name, _,
          ⟨by rw [heq, stemOf, List.append_assoc, List.cons_append], hplain⟩,
          some own, _, .inr ⟨own, rfl, hnonempty, hdash, rfl⟩, written, left,
          ⟨rfl, hspells⟩, hend, rfl, rfl, rfl⟩

theorem stemOf_splitStem (stem : List Char) :
    stemOf (splitStem stem).1 (splitStem stem).2 = stem := by
  rcases splitStem_cases stem with
    ⟨name, token, hsplit, rfl, -⟩ | ⟨hsplit, -⟩ <;> rw [hsplit] <;> rfl

theorem splitStem_stemOf {name : List Char} {token : Option (List Char)}
    (htoken : ∀ own, token = some own → own ≠ [] ∧ '-' ∉ own) :
    splitStem (stemOf name token) = (name, token) ∨
      ∃ rest, rest ≠ [] ∧ name = (splitStem (stemOf name token)).1 ++ rest := by
  cases token with
  | some own =>
      obtain ⟨hnonempty, hdash⟩ := htoken own rfl
      exact .inl (splitStem_append hdash hnonempty)
  | none =>
      rcases splitStem_cases name with
        ⟨first, token, hsplit, hname, -⟩ | ⟨hsplit, -⟩
      · exact .inr ⟨'-' :: token, List.cons_ne_nil _ _, by
          rw [stemOf, hsplit]; exact hname⟩
      · exact .inl hsplit

/-- The first way that works is the division at the last dash. -/
theorem head?_ways (base : List Char) :
    (ways base).head? =
      (splitExtension? (dropFinalNewline base)).bind fun (stem, written) =>
        if (splitStem stem).1.contains '\n' then none
        else some ⟨(splitStem stem).1, (splitStem stem).2, written⟩ := by
  cases hextension : splitExtension? (dropFinalNewline base) with
  | none =>
      rw [Option.bind_none, List.head?_eq_none_iff,
        List.eq_nil_iff_forall_not_mem]
      intro found hfound
      cases hextension.symm.trans (mem_ways_iff.mp hfound).1
  | some parts =>
      obtain ⟨stem, written⟩ := parts
      -- every way that works makes up the same stem, so only the division and a
      -- longer name are left
      have hways : ∀ found ∈ ways base,
          found = ⟨(splitStem stem).1, (splitStem stem).2, written⟩ ∨
          ∃ rest, rest ≠ [] ∧ found.name = (splitStem stem).1 ++ rest := by
        intro found hfound
        obtain ⟨hsplit, -, htoken⟩ := mem_ways_iff.mp hfound
        obtain ⟨rfl, rfl⟩ : stem = stemOf found.name found.token ∧
            written = found.written := by
          simpa [hextension] using hsplit
        refine (splitStem_stemOf htoken).imp_left fun heq => ?_
        rw [heq]
      rw [Option.bind_some]
      dsimp only
      by_cases hline : '\n' ∈ (splitStem stem).1
      · rw [if_pos (by simpa using hline), List.head?_eq_none_iff,
          List.eq_nil_iff_forall_not_mem]
        intro found hfound
        refine (mem_ways_iff.mp hfound).2.1 ?_
        rcases hways found hfound with rfl | ⟨rest, -, heq⟩
        · exact hline
        · exact heq ▸ List.mem_append_left rest hline
      · rw [if_neg (by simpa using hline)]
        have htarget :
            ⟨(splitStem stem).1, (splitStem stem).2, written⟩ ∈ ways base := by
          refine mem_ways_iff.mpr
            ⟨by rw [stemOf_splitStem, hextension], hline, ?_⟩
          rcases splitStem_cases stem with
            ⟨name, token, hsplit, -, hnonempty, hdash⟩ | ⟨hsplit, -⟩
          · rw [hsplit]
            rintro _ ⟨⟩
            exact ⟨hnonempty, hdash⟩
          · rw [hsplit]
            nofun
        obtain ⟨first, rest, hfirst⟩ :=
          List.exists_cons_of_ne_nil (List.ne_nil_of_mem htarget)
        rw [hfirst, List.head?_cons, Option.some.injEq]
        rcases hways first (by simp [hfirst]) with heq | ⟨more, hmore, heq⟩
        · exact heq
        · have hshortest : first.name.length ≤ (splitStem stem).1.length :=
            length_name_le_of_mem hfirst htarget
          have hlength := List.length_pos_iff.mpr hmore
          rw [heq, List.length_append] at hshortest
          omega

end FileName

end Fragments
