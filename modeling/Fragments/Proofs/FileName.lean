import Fragments.FileName

namespace Fragments

theorem List.append_cons_inj_of_not_mem {mark : α}
    {before other after rest : List α} (hafter : mark ∉ after)
    (hrest : mark ∉ rest)
    (heq : before ++ mark :: after = other ++ mark :: rest) :
    before = other ∧ after = rest := by
  rcases List.append_eq_append_iff.mp heq with
    ⟨gap, rfl, hgap⟩ | ⟨gap, rfl, hgap⟩
  · cases gap with
    | nil => simpa using hgap
    | cons first gap =>
        simp only [List.cons_append, List.cons.injEq] at hgap
        exact absurd (by simp [hgap.2]) hafter
  · cases gap with
    | nil => simpa [eq_comm] using hgap
    | cons first gap =>
        simp only [List.cons_append, List.cons.injEq] at hgap
        exact absurd (by simp [hgap.2]) hrest

theorem Text.splitAt_of_not_mem {p : α → Bool} {xs : List α}
    (hnone : ∀ x ∈ xs, p x = false) :
    Text.splitAt p xs = [xs] := by
  induction xs with
  | nil => rfl
  | cons x xs ih =>
      rw [Text.splitAt, hnone x List.mem_cons_self,
        ih fun y hy => hnone y (List.mem_cons_of_mem x hy)]
      rfl

theorem Text.split_of_not_mem {separator : Char} {text : String}
    (hnot : separator ∉ text.toList) :
    Text.split separator text = [text] := by
  rw [Text.split, Text.splitAt_of_not_mem fun c hc => by
    simpa using ne_of_mem_of_not_mem hc hnot]
  simp

theorem Path.name_ofText {text : String} (hslash : '/' ∉ text.toList)
    (hempty : text ≠ "") (hdot : text ≠ ".") :
    (Path.ofText text).name = text := by
  simp [Path.ofText, Path.name, Text.split_of_not_mem hslash, hempty, hdot]

namespace FileName

variable {chars stem written before after : List Char}

theorem not_mem_of_spellsWord {word : List Char} {other : Char}
    (hspells : spellsWord word written = true)
    (hword : ∀ letter ∈ word, spells letter other = false) :
    other ∉ written := by
  induction word generalizing written with
  | nil =>
      cases written with
      | nil => simp
      | cons c rest => cases hspells
  | cons letter word ih =>
      cases written with
      | nil => cases hspells
      | cons c rest =>
          obtain ⟨hfirst, hrest⟩ := Bool.and_eq_true_iff.mp hspells
          rw [List.mem_cons, not_or]
          refine ⟨?_, ih hrest fun later hlater =>
            hword later (List.mem_cons_of_mem letter hlater)⟩
          rintro rfl
          rw [hword letter List.mem_cons_self] at hfirst
          cases hfirst

theorem length_of_spellsWord {word : List Char}
    (hspells : spellsWord word written = true) :
    written.length = word.length := by
  induction word generalizing written with
  | nil =>
      cases written with
      | nil => rfl
      | cons c rest => cases hspells
  | cons letter word ih =>
      cases written with
      | nil => cases hspells
      | cons c rest =>
          exact congrArg (· + 1) (ih (Bool.and_eq_true_iff.mp hspells).2)

theorem not_mem_of_spells_extension {extension : List Char}
    (hknown : extension ∈ extensions)
    (hspells : spellsWord extension written = true) {mark : Char}
    (hmark : mark ∈ ['.', '/', '\n']) :
    mark ∉ written := by
  have hletters : (extensions.all fun word => word.all fun letter =>
      ['.', '/', '\n'].all fun mark => !spells letter mark) = true := by
    decide
  simp only [List.all_eq_true, Bool.not_eq_true'] at hletters
  exact not_mem_of_spellsWord hspells fun letter hletter =>
    hletters extension hknown letter hletter mark hmark

theorem eq_append_of_splitExtension?
    (hsplit : splitExtension? chars = some (stem, written)) :
    chars = stem ++ '.' :: written ∧
      ∃ extension ∈ extensions, spellsWord extension written = true := by
  obtain ⟨extension, hknown, hfound⟩ := List.exists_of_findSome?_eq_some hsplit
  dsimp only at hfound
  split at hfound
  · next rest hdrop =>
      split at hfound
      · next hspells =>
          cases hfound
          refine ⟨?_, extension, hknown, hspells⟩
          rw [← hdrop, List.length_take, Nat.min_eq_left (Nat.sub_le _ _)]
          exact (List.take_append_drop _ chars).symm
      · cases hfound
  · cases hfound

theorem splitExtension?_eq_some_iff :
    splitExtension? chars = some (stem, written) ↔
      chars = stem ++ '.' :: written ∧
        ∃ extension ∈ extensions, spellsWord extension written = true := by
  refine ⟨eq_append_of_splitExtension?, ?_⟩
  rintro ⟨rfl, extension, hknown, hspells⟩
  have hlength : (stem ++ '.' :: written).length - (extension.length + 1) =
      stem.length := by
    have hsame := length_of_spellsWord hspells
    simp only [List.length_append, List.length_cons]
    omega
  have hsome : (splitExtension? (stem ++ '.' :: written)).isSome := by
    refine List.findSome?_isSome_iff.mpr ⟨extension, hknown, ?_⟩
    simp only [hlength, List.take_left, List.drop_left, hspells, if_true,
      Option.isSome_some]
  obtain ⟨⟨other, rest⟩, hsplit⟩ := Option.isSome_iff_exists.mp hsome
  obtain ⟨heq, found, hfound, hrest⟩ := eq_append_of_splitExtension? hsplit
  obtain ⟨rfl, rfl⟩ := List.append_cons_inj_of_not_mem
    (not_mem_of_spells_extension hknown hspells (by simp))
    (not_mem_of_spells_extension hfound hrest (by simp)) heq
  exact hsplit

theorem splitLastDash?_eq_none_iff :
    splitLastDash? chars = none ↔ '-' ∉ chars := by
  induction chars with
  | nil => simp [splitLastDash?]
  | cons c rest ih =>
      rw [splitLastDash?]
      cases hrest : splitLastDash? rest with
      | none =>
          rw [List.mem_cons, not_or, ← ih, hrest]
          by_cases hdash : c = '-'
          · simp [hdash]
          · simp [hdash, Ne.symm hdash]
      | some parts =>
          have hmem : '-' ∈ rest := by simpa [hrest] using ih
          simp [hmem]

theorem splitLastDash?_append (hafter : '-' ∉ after) :
    splitLastDash? (before ++ '-' :: after) = some (before, after) := by
  induction before with
  | nil =>
      rw [List.nil_append, splitLastDash?,
        splitLastDash?_eq_none_iff.mpr hafter]
      rfl
  | cons c before ih => rw [List.cons_append, splitLastDash?, ih]

theorem splitLastDash?_eq_some_iff :
    splitLastDash? chars = some (before, after) ↔
      chars = before ++ '-' :: after ∧ '-' ∉ after := by
  refine ⟨fun hsplit => ?_, fun ⟨heq, hafter⟩ =>
    heq ▸ splitLastDash?_append hafter⟩
  induction chars generalizing before with
  | nil => cases hsplit
  | cons c rest ih =>
      rw [splitLastDash?] at hsplit
      cases hrest : splitLastDash? rest with
      | some parts =>
          rw [hrest] at hsplit
          cases hsplit
          obtain ⟨rfl, hafter⟩ := ih hrest
          exact ⟨rfl, hafter⟩
      | none =>
          rw [hrest] at hsplit
          obtain ⟨hdash, heq⟩ := Option.ite_none_right_eq_some.mp hsplit
          cases heq
          exact ⟨by
            rw [beq_iff_eq.mp hdash, List.nil_append],
              splitLastDash?_eq_none_iff.mp hrest⟩

theorem splitStem_append (hafter : '-' ∉ after) (hnonempty : after ≠ []) :
    splitStem (before ++ '-' :: after) = (before, some after) := by
  obtain ⟨first, rest, rfl⟩ := List.exists_cons_of_ne_nil hnonempty
  rw [splitStem, splitLastDash?_append hafter]

theorem splitStem_cases (stem : List Char) :
    (∃ name token, splitStem stem = (name, some token) ∧
      stem = name ++ '-' :: token ∧
        token ≠ [] ∧ '-' ∉ token) ∨
      (splitStem stem = (stem, none) ∧
        ∀ name token, stem = name ++ '-' :: token → '-' ∉ token →
          token = []) := by
  cases hsplit : splitLastDash? stem with
  | none =>
      refine .inr ⟨by rw [splitStem, hsplit], ?_⟩
      rintro name token rfl -
      exact absurd (by simp) (splitLastDash?_eq_none_iff.mp hsplit)
  | some parts =>
      obtain ⟨name, token⟩ := parts
      obtain ⟨rfl, hdash⟩ := splitLastDash?_eq_some_iff.mp hsplit
      cases token with
      | nil =>
          refine .inr ⟨by
            rw [splitStem, hsplit], fun other rest heq hrest => ?_⟩
          exact (List.append_cons_inj_of_not_mem hdash hrest heq).2.symm
      | cons first rest =>
          exact .inl ⟨name, first :: rest,
            splitStem_append hdash (List.cons_ne_nil _ _), rfl,
            List.cons_ne_nil _ _, hdash⟩

theorem splitStem_of_no_type {stem : List Char}
    (hdash : '-' ∉ stem ∨ stem.getLast? = some '-') :
    splitStem stem = (stem, none) := by
  rcases splitStem_cases stem with
    ⟨name, token, -, rfl, hnonempty, htoken⟩ | ⟨hsplit, -⟩
  · rcases hdash with hnone | hlast
    · exact absurd (by simp) hnone
    · simp only [List.getLast?_append, List.getLast?_cons,
        List.getLast?_eq_some_getLast hnonempty, Option.getD_some,
        Option.some_or, Option.some.injEq] at hlast
      exact absurd (hlast ▸ List.getLast_mem hnonempty) htoken
  · exact hsplit

end FileName

end Fragments
