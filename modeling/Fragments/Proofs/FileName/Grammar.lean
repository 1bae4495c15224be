import Fragments.Proofs.FileName.Parsing
import Mathlib.Tactic.Set

namespace Fragments

namespace Text

theorem lowerChar_long_s : lowerChar 'ſ' = ['ſ'] := by
  decide +kernel

end Text

namespace FileName

variable {word written : List Char}

theorem spellsWord_nil_iff : spellsWord [] written = true ↔ written = [] := by
  cases written <;> simp [spellsWord]

theorem spellsWord_cons_iff {letter : Char} :
    spellsWord (letter :: word) written = true ↔
      ∃ c rest, written = c :: rest ∧ spells letter c = true ∧
        spellsWord word rest = true := by
  cases written with
  | nil => simp [spellsWord]
  | cons c rest =>
      rw [spellsWord, Bool.and_eq_true]
      constructor
      · exact fun hboth => ⟨c, rest, rfl, hboth⟩
      · rintro ⟨_, _, ⟨⟩, hboth⟩
        exact hboth

theorem eq_long_s_iff {c : Char} : c = 'ſ' ↔ c.toNat = 0x17F :=
  Char.toNat_inj.symm

/-- The lower case of a character that spells a letter. -/
def lowered (letter c : Char) : Char := if c = 'ſ' then c else letter

theorem lowerChar_of_spells {letter c : Char}
    (hletter : Text.isLowerAscii letter = true)
    (hspells : spells letter c = true) :
    c.toNat ≠ 0x3A3 ∧ Text.lowerChar c = [lowered letter c] := by
  have hbounds := Text.isLowerAscii_iff.mp hletter
  simp only [spells, Bool.or_eq_true, Bool.and_eq_true, beq_iff_eq] at hspells
  rcases hspells with (rfl | ⟨hupper, hshift⟩) | ⟨-, hlong⟩
  · have hupper : Text.isUpperAscii c = false := by
      rw [← Bool.not_eq_true, Text.isUpperAscii_iff]
      omega
    refine ⟨by omega, ?_⟩
    rw [Text.lowerChar_of_ascii (by omega),
      Text.toLower_of_not_isUpperAscii hupper, lowered,
      if_neg (mt eq_long_s_iff.mp (by omega))]
  · refine ⟨by omega, ?_⟩
    rw [Text.lowerChar_of_ascii (by omega),
      (Text.toLower_of_isUpperAscii hupper).1, hshift, Char.ofNat_toNat,
      lowered, if_neg (mt eq_long_s_iff.mp (by omega))]
  · obtain rfl : c = 'ſ' := eq_long_s_iff.mpr hlong
    exact ⟨by decide, Text.lowerChar_long_s⟩

theorem lowerFrom_of_spellsWord
    (hword : ∀ letter ∈ word, Text.isLowerAscii letter = true)
    (hspells : spellsWord word written = true) (afterCased : Bool) :
    Text.lowerFrom afterCased written = List.zipWith lowered word written := by
  induction word generalizing written afterCased with
  | nil =>
      rw [spellsWord_nil_iff.mp hspells, Text.lowerFrom, List.zipWith_nil_right]
  | cons letter word ih =>
      obtain ⟨c, rest, rfl, hfirst, hrest⟩ := spellsWord_cons_iff.mp hspells
      obtain ⟨hsigma, hlower⟩ :=
        lowerChar_of_spells (hword letter List.mem_cons_self) hfirst
      rw [Text.lowerFrom, if_neg hsigma, hlower,
        ih (fun later hlater =>
          hword later (List.mem_cons_of_mem letter hlater)) hrest]
      rfl

theorem lowerFrom_of_spells_extension {extension : List Char}
    (hknown : extension ∈ extensions)
    (hspells : spellsWord extension written = true) (afterCased : Bool) :
    Text.lowerFrom afterCased written =
      List.zipWith lowered extension written := by
  have hwords : (extensions.all fun word => word.all Text.isLowerAscii) =
      true := by decide
  simp only [List.all_eq_true] at hwords
  exact lowerFrom_of_spellsWord (hwords extension hknown) hspells afterCased

theorem zipWith_of_spellsWord (hspells : spellsWord word written = true)
    (hplain : 'ſ' ∉ written) :
    List.zipWith lowered word written = word := by
  induction word generalizing written with
  | nil => rfl
  | cons letter word ih =>
      obtain ⟨c, rest, rfl, -, hrest⟩ := spellsWord_cons_iff.mp hspells
      rw [List.mem_cons, not_or] at hplain
      rw [List.zipWith_cons_cons, lowered, if_neg (Ne.symm hplain.1),
        ih hrest hplain.2]

theorem zipWith_of_long_s_mem {extension : List Char}
    (hknown : extension ∈ extensions)
    (hspells : spellsWord extension written = true) (hlong : 'ſ' ∈ written) :
    List.zipWith lowered extension written = "jſon".toList := by
  have hother : (extensions.all fun word => word == ['j', 's', 'o', 'n'] ||
      word.all fun letter => !spells letter 'ſ') = true := by decide
  simp only [List.all_eq_true, Bool.or_eq_true, beq_iff_eq, Bool.not_eq_true']
    at hother
  obtain rfl : extension = ['j', 's', 'o', 'n'] :=
    (hother extension hknown).resolve_right fun hletters =>
      not_mem_of_spellsWord hspells hletters hlong
  simp only [spellsWord_cons_iff, spellsWord_nil_iff] at hspells
  obtain ⟨first, _, rfl, hfirst, second, _, rfl, -, third, _, rfl, hthird,
      fourth, _, rfl, hfourth, rfl⟩ := hspells
  have hne {letter c : Char} (hletter : spells letter 'ſ' = false)
      (hspelled : spells letter c = true) : c ≠ 'ſ' := by
    rintro rfl
    rw [hletter] at hspelled
    cases hspelled
  have hfirst := hne (by decide) hfirst
  have hthird := hne (by decide) hthird
  have hfourth := hne (by decide) hfourth
  obtain rfl : second = 'ſ' := by
    simpa [Ne.symm hfirst, Ne.symm hthird, Ne.symm hfourth, eq_comm] using hlong
  simp [lowered, hfirst, hthird, hfourth]

theorem lower_of_spells_extension {extension : List Char}
    (hknown : extension ∈ extensions)
    (hspells : spellsWord extension written = true) :
    Text.lower (String.ofList written) =
      if 'ſ' ∈ written then "jſon" else String.ofList extension := by
  rw [Text.lower, String.toList_ofList,
    lowerFrom_of_spells_extension hknown hspells]
  split
  · next hlong =>
      rw [zipWith_of_long_s_mem hknown hspells hlong]
      rfl
  · next hplain => rw [zipWith_of_spellsWord hspells hplain]

theorem parse?_eq_some_iff {text : String} {file : FileName} :
    parse? text = some file ↔
      ∃ stem written ending,
        (Path.ofText text).name.toList = stem ++ '.' :: (written ++ ending) ∧
          isEnd ending = true ∧
            (∃ extension ∈ extensions, spellsWord extension written = true) ∧
          '\n' ∉ (splitStem stem).1 ∧
          file = Match.fileName (Path.ofText text).name
            ⟨(splitStem stem).1, (splitStem stem).2, written⟩ := by
  rw [parse?_eq_head?_ways, head?_ways]
  generalize (Path.ofText text).name = base
  simp only [Option.map_eq_some_iff, Option.bind_eq_some_iff, Prod.exists,
    Option.ite_none_left_eq_some, Option.some.injEq, List.contains_iff_mem]
  constructor
  · rintro ⟨_, ⟨stem, written, hsplit, hline, rfl⟩, rfl⟩
    obtain ⟨hkept, hspells⟩ := splitExtension?_eq_some_iff.mp hsplit
    obtain ⟨ending, hend, heq⟩ := exists_eq_dropFinalNewline_append base.toList
    refine ⟨stem, written, ending, ?_, hend, hspells, hline, rfl⟩
    rw [heq, hkept, List.append_assoc, List.cons_append]
  · rintro ⟨stem, written, ending, heq, hend, hspells, hline, rfl⟩
    refine ⟨_, ⟨stem, written, splitExtension?_eq_some_iff.mpr ⟨?_, hspells⟩,
      hline, rfl⟩, rfl⟩
    rw [heq, dropFinalNewline_append hspells hend]

def stem (file : FileName) : String :=
  match file.typeToken with
  | some token => file.name ++ "-" ++ token
  | none => file.name

/-- A file name whose parts make it up, with a known extension and a type that
is one. -/
structure Exact (file : FileName) : Prop where
  recomposed : ∃ written, file.fileName = file.stem ++ "." ++ written ∧
    Text.lower written = file.extension
  known : file.extension ∈ ["yaml", "yml", "json"]
  typed : ∀ token, file.typeToken = some token → token ≠ "" ∧ '-' ∉ token.toList

theorem toList_stem (file : FileName) :
    file.stem.toList =
      stemOf file.name.toList (file.typeToken.map String.toList) := by
  unfold stem stemOf
  cases file.typeToken <;> simp

section

variable {base : String} {stem : List Char}

theorem toList_stem_of_splitStem :
    (Match.fileName base
      ⟨(splitStem stem).1, (splitStem stem).2, written⟩).stem.toList =
      stem := by
  rw [toList_stem]
  simpa [Match.fileName, Function.comp_def] using stemOf_splitStem stem

theorem typed_of_splitStem {token : String}
    (htoken : (splitStem stem).2.map String.ofList = some token) :
    token ≠ "" ∧ '-' ∉ token.toList := by
  obtain ⟨chars, hchars, rfl⟩ := Option.map_eq_some_iff.mp htoken
  rcases splitStem_cases stem with
    ⟨name, own, hsplit, -, hnonempty, hdash⟩ | ⟨hsplit, -⟩
  · rw [hsplit, Option.some.injEq] at hchars
    obtain rfl := hchars
    exact ⟨by simpa using hnonempty, by simpa using hdash⟩
  · simp [hsplit] at hchars

end

theorem known_iff_of_spells_extension {extension : List Char}
    (hknown : extension ∈ extensions)
    (hspells : spellsWord extension written = true) :
    Text.lower (String.ofList written) ∈ ["yaml", "yml", "json"] ↔
      'ſ' ∉ written := by
  have hwords : ∀ word ∈ extensions,
      String.ofList word ∈ ["yaml", "yml", "json"] := by decide
  rw [lower_of_spells_extension hknown hspells]
  by_cases hlong : 'ſ' ∈ written
  · rw [if_pos hlong]
    exact iff_of_false (by decide) (not_not_intro hlong)
  · rw [if_neg hlong]
    exact iff_of_true (hwords extension hknown) hlong

theorem Exact.ending_eq {file : FileName} (hexact : file.Exact)
    {written ending : String}
    (hname : file.fileName = file.stem ++ "." ++ written ++ ending)
    (hending : ending = "" ∨ ending = "\n") : ending = "" := by
  refine hending.resolve_right ?_
  rintro rfl
  obtain ⟨other, hother, hlower⟩ := hexact.recomposed
  have hsame : other = written ++ "\n" := by
    rw [hname, String.append_assoc] at hother
    exact ((String.append_right_inj _).mp hother).symm
  have hmem : '\n' ∈ file.extension.toList := by
    rw [← hlower, hsame]
    exact Text.newline_mem_lower (by simp)
  have hplain : ∀ word ∈ ["yaml", "yml", "json"],
      '\n' ∉ word.toList := by decide
  exact hplain _ hexact.known hmem

/-- What a name is read as makes it up again: its stem, a dot and a spelling of
the extension, and then at most a line feed. The parts are what they should be
exactly if there is none and no long s is in the extension. -/
theorem parse?_exact_iff {text : String} {file : FileName}
    (hparse : parse? text = some file) :
    file.fileName = (Path.ofText text).name ∧
      (∀ token, file.typeToken = some token → token ≠ "" ∧ '-' ∉ token.toList) ∧
      ∃ written ending, file.fileName = file.stem ++ "." ++ written ++ ending ∧
        (ending = "" ∨ ending = "\n") ∧ Text.lower written = file.extension ∧
        (file.extension ∈ ["yaml", "yml", "json"] ∨ file.extension = "jſon") ∧
        (file.Exact ↔ ending = "" ∧ 'ſ' ∉ written.toList) := by
  obtain ⟨stem, written, ending, hbase, hend,
      ⟨extension, hknown, hspells⟩, -, rfl⟩ :=
    parse?_eq_some_iff.mp hparse
  set file := Match.fileName (Path.ofText text).name
    ⟨(splitStem stem).1, (splitStem stem).2, written⟩ with hfile
  have htyped : ∀ token, file.typeToken = some token → token ≠ "" ∧
      '-' ∉ token.toList :=
    fun token htoken => typed_of_splitStem htoken
  have hname : file.fileName = file.stem ++ "." ++ String.ofList written ++
      String.ofList ending := by
    refine String.toList_inj.mp (hbase.trans ?_)
    simp [hfile, toList_stem_of_splitStem]
  have hending : String.ofList ending = "" ∨ String.ofList ending = "\n" := by
    rcases isEnd_iff.mp hend with rfl | rfl
    · exact .inl rfl
    · exact .inr rfl
  have hextension := known_iff_of_spells_extension hknown hspells
  refine ⟨rfl, htyped, String.ofList written, String.ofList ending, hname,
    hending, rfl, ?_, ?_⟩
  · by_cases hlong : 'ſ' ∈ written
    · exact .inr ((lower_of_spells_extension hknown hspells).trans
        (if_pos hlong))
    · exact .inl (hextension.mpr hlong)
  · rw [String.toList_ofList]
    constructor
    · exact fun hexact =>
        ⟨hexact.ending_eq hname hending, hextension.mp hexact.known⟩
    · rintro ⟨hnone, hplain⟩
      refine ⟨⟨String.ofList written, ?_, rfl⟩, hextension.mpr hplain, htyped⟩
      rw [hname, hnone, String.append_empty]

/-- A name in mixed case below a directory is read for what it is. One with a
long s is not. -/
theorem parse?_exact_iff_spellings :
    parse? "conf.d/my-web-svc.YmL" =
      some ⟨"my-web-svc.YmL", "my-web", some "svc", "yml"⟩ ∧
      (⟨"my-web-svc.YmL", "my-web", some "svc", "yml"⟩ : FileName).Exact ∧
      parse? "my-web.jſon" = some ⟨"my-web.jſon", "my", some "web", "jſon"⟩ ∧
      ¬(⟨"my-web.jſon", "my", some "web", "jſon"⟩ : FileName).Exact := by
  have hplain : parse? "conf.d/my-web-svc.YmL" =
      some ⟨"my-web-svc.YmL", "my-web", some "svc", "yml"⟩ := by decide +kernel
  have hlong : parse? "my-web.jſon" =
      some ⟨"my-web.jſon", "my", some "web", "jſon"⟩ := by
    decide +kernel
  refine ⟨hplain, ?_, hlong, ?_⟩
  · obtain ⟨-, -, written, ending, hname, hending, -, -, hexact⟩ :=
      parse?_exact_iff hplain
    have hmem {c : Char} (hc : c ∈ (written ++ ending).toList) :
        c ∈ "my-web-svc.YmL".toList := by
      rw [show "my-web-svc.YmL" = _ from hname, String.append_assoc,
        String.toList_append]
      exact List.mem_append_right _ hc
    refine hexact.mpr ⟨hending.resolve_right fun hline => ?_, fun hlong => ?_⟩
    · exact absurd (hmem (c := '\n') (by simp [hline])) (by decide)
    · exact absurd (hmem (c := 'ſ') (by simp [hlong])) (by decide)
  · exact fun hexact => absurd hexact.known (by decide)

/-- Not every name that is accepted is the one of a fragment file: a long s
passes for an s, and a line feed at the end is overlooked. -/
theorem exists_parse?_not_exact :
    (∃ file, parse? "foo-svc.jſon" = some file ∧ ¬file.Exact) ∧
      ∃ file, parse? "foo-svc.yaml\n" = some file ∧ ¬file.Exact := by
  have hlong : parse? "foo-svc.jſon" =
      some ⟨"foo-svc.jſon", "foo", some "svc", "jſon"⟩ := by
    decide +kernel
  have hline : parse? "foo-svc.yaml\n" =
      some ⟨"foo-svc.yaml\n", "foo", some "svc", "yaml"⟩ := by
    decide +kernel
  refine ⟨⟨_, hlong, fun hexact => ?_⟩, _, hline, fun hexact => ?_⟩
  · exact absurd hexact.known (by decide)
  · have hname : "foo-svc.yaml\n" = "foo-svc" ++ "." ++ "yaml" ++
        "\n" := by decide
    exact absurd (hexact.ending_eq hname (.inr rfl)) (by decide)

end FileName

end Fragments
