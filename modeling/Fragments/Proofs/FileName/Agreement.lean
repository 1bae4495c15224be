import Fragments.FragmentFile
import Fragments.Proofs.FileName.Grammar
import Fragments.Proofs.Text.Basic

namespace Fragments

namespace Path

variable {before after : List Char}

theorem findIdx?_reverse_of_not_mem {chars : List Char} (hdot : '.' ∉ chars) :
    chars.reverse.findIdx? (· == '.') = none := by
  rw [List.findIdx?_eq_none_iff]
  intro c hc
  simpa using ne_of_mem_of_not_mem (List.mem_reverse.mp hc) hdot

theorem lastDot?_append (hafter : '.' ∉ after) :
    lastDot? (before ++ '.' :: after) = some before.length := by
  have hreverse : (before ++ '.' :: after).reverse = after.reverse ++
      '.' :: before.reverse := by simp
  rw [lastDot?, hreverse, List.findIdx?_append,
    findIdx?_reverse_of_not_mem hafter, List.findIdx?_cons, if_pos (by decide)]
  simp

theorem suffixOf_append (hafter : '.' ∉ after) :
    suffixOf (before ++ '.' :: after) = if before ≠ [] ∧ after ≠ [] then
      '.' :: after else [] := by
  have hboth :
      (0 < before.length ∧
        before.length + 1 < (before ++ '.' :: after).length) ↔
      before ≠ [] ∧ after ≠ [] := by
    rw [← List.length_pos_iff, ← List.length_pos_iff, List.length_append,
      List.length_cons]
    omega
  rw [suffixOf, lastDot?_append hafter]
  simp only [hboth, List.drop_left]

theorem suffixOf_of_not_mem {chars : List Char} (hdot : '.' ∉ chars) :
    suffixOf chars = [] := by
  rw [suffixOf, lastDot?, findIdx?_reverse_of_not_mem hdot]
  rfl

theorem exists_eq_append_of_mem {chars : List Char} (hdot : '.' ∈ chars) :
    ∃ before after, chars = before ++ '.' :: after ∧ '.' ∉ after := by
  obtain ⟨after, before, heq, hafter⟩ :=
    List.eq_append_cons_of_mem (List.mem_reverse.mpr hdot)
  refine ⟨before.reverse, after.reverse, ?_, by simpa using hafter⟩
  rw [← List.reverse_reverse chars, heq]
  simp

theorem name_child (path : Path) (name : String) :
    (path.child name).name = name := by
  simp [Path.name, child]

theorem child_inj {path : Path} {name other : String} :
    path.child name = path.child other ↔ name = other :=
  ⟨fun heq => by
    rw [← name_child path name, heq, name_child], fun heq => by rw [heq]⟩

theorem extension_child {path : Path} {name : String}
    (hname : name.toList = before ++ '.' :: after) (hafter : '.' ∉ after) :
    (path.child name).extension = if before ≠ [] ∧ after ≠ [] then
      String.ofList after else "" := by
  rw [extension, name_child, hname, suffixOf_append hafter]
  split
  · have hkept : after.dropWhile (· == '.') = after := by
      cases after with
      | nil => rfl
      | cons c rest =>
          rw [List.mem_cons, not_or] at hafter
          rw [List.dropWhile_cons_of_neg (by simpa using Ne.symm hafter.1)]
    rw [List.dropWhile_cons_of_pos (by simp), hkept]
  · rfl

end Path

namespace FileName

variable {written : List Char}

theorem lowerFrom_mem_extensions_iff (afterCased : Bool) :
    Text.lowerFrom afterCased written ∈ extensions ↔
      (∃ extension ∈ extensions, spellsWord extension written = true) ∧
        'ſ' ∉ written := by
  constructor
  · intro hmem
    have hletters : (extensions.all fun word => word.all Text.isPlainLetter) =
        true := by decide
    simp only [List.all_eq_true] at hletters
    have hascii := Text.ascii_of_lowerFrom (hletters _ hmem)
    rw [Text.lowerFrom_of_ascii hascii] at hmem
    exact ⟨⟨_, hmem, spellsWord_toLower written⟩, fun hlong =>
      absurd (hascii _ hlong) (by decide)⟩
  · rintro ⟨⟨extension, hknown, hspells⟩, hplain⟩
    rw [lowerFrom_of_spells_extension hknown hspells,
      zipWith_of_spellsWord hspells hplain]
    exact hknown

theorem ne_nil_of_spells_extension
    (hspells : ∃ extension ∈ extensions, spellsWord extension written = true) :
    written ≠ [] := by
  rintro rfl
  revert hspells
  decide

theorem dot_not_mem_of_isEnd {ending : List Char}
    (hspells : ∃ extension ∈ extensions, spellsWord extension written = true)
    (hend : isEnd ending = true) : '.' ∉ written ++ ending := by
  obtain ⟨extension, hknown, hspells⟩ := hspells
  rw [List.mem_append, not_or]
  refine ⟨not_mem_of_spells_extension hknown hspells (by simp), ?_⟩
  rcases isEnd_iff.mp hend with rfl | rfl <;> decide

theorem name_ofText_of_parse? {text : String} {file : FileName}
    (hslash : '/' ∉ text.toList) (hparse : parse? text = some file) :
    (Path.ofText text).name = text := by
  obtain ⟨stem, written, ending, heq, -⟩ := parse?_eq_some_iff.mp hparse
  refine Path.name_ofText hslash ?_ ?_
  · rintro rfl
    simp [show (Path.ofText "").name = "" from rfl] at heq
  · rintro rfl
    simp [show (Path.ofText ".").name = "" from rfl] at heq

end FileName

namespace FragmentFile

open FileName (parse? spellsWord splitStem isEnd)

theorem lower_dot (after : List Char) :
    ∃ afterCased, Text.lower (String.ofList ('.' :: after)) =
      String.ofList ('.' :: Text.lowerFrom afterCased after) :=
  ⟨_, by rw [Text.lower, String.toList_ofList, Text.lowerFrom]; rfl⟩

/-- The names that a directory contributes, as it lists them. -/
def collectedNames (disk : Disk) (path : Path) : List String :=
  (disk.list path).filterMap fun (name, node) =>
    if node.isFile && isCollected name then some name else none

theorem ofDirectory_eq (disk : Disk) (path : Path) :
    ofDirectory disk path =
      ((collectedNames disk path).mergeSort Text.notAfter).map path.child :=
  rfl

theorem mem_collectedNames_iff {disk : Disk} {path : Path} {name : String} :
    name ∈ collectedNames disk path ↔
      (∃ content, (name, Node.file content) ∈ disk.list path) ∧
        isCollected name = true := by
  simp only [collectedNames, List.mem_filterMap, Prod.exists,
    Option.ite_none_right_eq_some, Option.some.injEq, Bool.and_eq_true]
  constructor
  · rintro ⟨_, node, hmem, ⟨hfile, hcollected⟩, rfl⟩
    cases node with
    | file content => exact ⟨⟨content, hmem⟩, hcollected⟩
    | directory entries => cases hfile
  · rintro ⟨⟨content, hmem⟩, hcollected⟩
    exact ⟨name, _, hmem, ⟨rfl, hcollected⟩, rfl⟩

theorem collect_singleton (disk : Disk) (path : Path) :
    collect disk [path] = if disk.isDirectory path then ofDirectory disk path
      else [path] :=
  List.flatMap_singleton _ path

theorem mem_collect_iff {disk : Disk} {directory : Path} {name : String}
    {content : List UInt8} (hdirectory : disk.isDirectory directory = true)
    (hlisted : (name, Node.file content) ∈ disk.list directory) :
    directory.child name ∈ collect disk [directory] ↔
      isCollected name = true := by
  rw [collect_singleton, if_pos hdirectory, ofDirectory_eq]
  simp only [List.mem_map, List.mem_mergeSort, Path.child_inj, exists_eq_right,
    mem_collectedNames_iff]
  exact and_iff_right ⟨content, hlisted⟩

theorem dot_mem_of_isCollected {name : String}
    (hcollected : isCollected name = true) :
    '.' ∈ name.toList := by
  refine Decidable.byContradiction fun hdot => ?_
  rw [isCollected, Path.suffixOf_of_not_mem hdot] at hcollected
  exact absurd hcollected (by decide)

theorem dot_mem_of_parse? {name : String} {file : FileName}
    (hslash : '/' ∉ name.toList) (hparse : parse? name = some file) :
    '.' ∈ name.toList := by
  obtain ⟨stem, written, ending, heq, -⟩ :=
    FileName.parse?_eq_some_iff.mp hparse
  rw [FileName.name_ofText_of_parse? hslash hparse] at heq
  simp [heq]

theorem isJson_lower_of_spells {written : List Char}
    (hspells : ∃ extension ∈ FileName.extensions,
      spellsWord extension written = true) :
    isJson (Text.lower (String.ofList written)) =
      decide (Text.lower (String.ofList written) = "json") := by
  have hwords : ∀ word ∈ FileName.extensions,
      isJson (String.ofList word) = decide (String.ofList word = "json") := by
        decide +kernel
  obtain ⟨extension, hknown, hspells⟩ := hspells
  rw [FileName.lower_of_spells_extension hknown hspells]
  split
  · decide +kernel
  · exact hwords extension hknown

theorem isJson_of_newline_mem {chars : List Char} (hline : '\n' ∈ chars) :
    isJson (String.ofList chars) = false := by
  refine beq_eq_false_iff_ne.mpr fun hjson => ?_
  have hmem := Text.newline_mem_lower
    (show '\n' ∈ (String.ofList chars).toList by simpa using hline)
  rw [hjson] at hmem
  exact absurd hmem (by decide)

section

variable {name : String} {before after : List Char}
  (hname : name.toList = before ++ '.' :: after) (hdot : '.' ∉ after)

include hname hdot

theorem isCollected_iff :
    isCollected name = true ↔
      before ≠ [] ∧
        (∃ extension ∈ FileName.extensions, spellsWord extension after = true) ∧
          'ſ' ∉ after := by
  have hextensions :
      extensions = FileName.extensions.map fun word =>
        String.ofList ('.' :: word) := by decide
  rw [isCollected, hname, Path.suffixOf_append hdot, List.contains_iff_mem,
    hextensions, List.mem_map]
  obtain ⟨afterCased, hlower⟩ := lower_dot after
  by_cases hboth : before ≠ [] ∧ after ≠ []
  · rw [if_pos hboth, ← FileName.lowerFrom_mem_extensions_iff afterCased,
      hlower]
    simp [hboth.1, String.ofList_inj]
  · refine iff_of_false ?_ fun ⟨hbefore, hspells, _⟩ => ?_
    · rw [if_neg hboth]
      decide
    · exact hboth ⟨hbefore, FileName.ne_nil_of_spells_extension hspells⟩

theorem of_parse?_eq_some {file : FileName} (hslash : '/' ∉ name.toList)
    (hparse : parse? name = some file) :
    ∃ written ending, after = written ++ ending ∧ isEnd ending = true ∧
      (∃ extension ∈ FileName.extensions, spellsWord extension written = true) ∧
      '\n' ∉ (splitStem before).1 ∧
        file.extension = Text.lower (String.ofList written) := by
  obtain ⟨stem, written, ending, heq, hend, hspells, hline, rfl⟩ :=
    FileName.parse?_eq_some_iff.mp hparse
  rw [FileName.name_ofText_of_parse? hslash hparse, hname] at heq
  obtain ⟨rfl, rfl⟩ := List.append_cons_inj_of_not_mem hdot
    (FileName.dot_not_mem_of_isEnd hspells hend) heq
  exact ⟨written, ending, rfl, hend, hspells, hline, rfl⟩

theorem exists_parse?_iff (hslash : '/' ∉ name.toList) :
    (∃ file, parse? name = some file) ↔
      (∃ written ending, after = written ++ ending ∧ isEnd ending = true ∧
        ∃ extension ∈ FileName.extensions,
          spellsWord extension written = true) ∧
        '\n' ∉ (splitStem before).1 := by
  constructor
  · rintro ⟨file, hparse⟩
    obtain ⟨written, ending, hafter, hend, hspells, hline, -⟩ :=
      of_parse?_eq_some hname hdot hslash hparse
    exact ⟨⟨written, ending, hafter, hend, hspells⟩, hline⟩
  · rintro ⟨⟨written, ending, rfl, hend, hspells⟩, hline⟩
    have hlength := congrArg List.length hname
    have hpos := List.length_pos_iff.mpr
      (FileName.ne_nil_of_spells_extension hspells)
    have hempty : name ≠ "" := by
      rintro rfl
      simp at hname
    have hsingle : name ≠ "." := by
      rintro rfl
      simp at hlength
      omega
    refine ⟨_, FileName.parse?_eq_some_iff.mpr
      ⟨before, written, ending, ?_, hend, hspells, hline, rfl⟩⟩
    rw [Path.name_ofText hslash hempty hsingle, hname]

theorem isCollected_iff_of_parse? (hslash : '/' ∉ name.toList)
    (hparse : ∃ file, parse? name = some file) :
    isCollected name = true ↔ before ≠ [] ∧ '\n' ∉ after ∧ 'ſ' ∉ after := by
  obtain ⟨⟨written, ending, rfl, hend, hspells⟩, -⟩ :=
    (exists_parse?_iff hname hdot hslash).mp hparse
  rw [isCollected_iff hname hdot]
  refine and_congr_right fun _ => and_congr_left fun _ => ⟨?_, fun hline => ?_⟩
  · rintro ⟨extension, hknown, hall⟩
    exact FileName.not_mem_of_spells_extension hknown hall (by simp)
  · rcases FileName.isEnd_iff.mp hend with rfl | rfl
    · rwa [List.append_nil]
    · simp at hline

theorem exists_parse?_iff_of_isCollected (hslash : '/' ∉ name.toList)
    (hcollected : isCollected name = true) :
    (∃ file, parse? name = some file) ↔ '\n' ∉ (splitStem before).1 := by
  obtain ⟨-, hspells, -⟩ := (isCollected_iff hname hdot).mp hcollected
  rw [exists_parse?_iff hname hdot hslash]
  exact and_iff_right ⟨after, [], (List.append_nil after).symm, rfl, hspells⟩

theorem isJson_extension_iff (hslash : '/' ∉ name.toList) {file : FileName}
    (hparse : parse? name = some file) (directory : Path) :
    isJson (directory.child name).extension = isJson file.extension ↔
      (file.extension = "json" → before ≠ [] ∧ '\n' ∉ after) := by
  obtain ⟨written, ending, rfl, hend, hspells, -, hextension⟩ :=
    of_parse?_eq_some hname hdot hslash hparse
  have hnonempty : written ++ ending ≠ [] := by
    simp [FileName.ne_nil_of_spells_extension hspells]
  rw [Path.extension_child hname hdot, hextension,
    isJson_lower_of_spells hspells]
  by_cases hbefore : before = []
  · simp [hbefore, show isJson "" = false by decide]
  rw [if_pos ⟨hbefore, hnonempty⟩]
  rcases FileName.isEnd_iff.mp hend with rfl | rfl
  · have hline : '\n' ∉ written := by
      obtain ⟨extension, hknown, hspells⟩ := hspells
      exact FileName.not_mem_of_spells_extension hknown hspells (by simp)
    rw [List.append_nil, isJson]
    exact iff_of_true (Bool.beq_eq_decide_eq _ _) fun _ => ⟨hbefore, hline⟩
  · have hline : '\n' ∈ written ++ ['\n'] := by simp
    rw [isJson_of_newline_mem hline]
    simp

end

/-- Reading asks an extension only whether it is the one of JSON. -/
theorem read_eq_of_isJson_eq {path : Path} {extension : String}
    (hjson : isJson path.extension = isJson extension) (disk : Disk) :
    read disk path none = read disk path (some extension) := by
  simp only [read, decode, Option.getD_none, Option.getD_some, hjson]

/-- The places that look at the extension of a name agree: what directories give
is what is accepted, and what is accepted is decoded by its suffix as by the
extension that it is read to have. -/
structure Agree (name : String) : Prop where
  collected (disk : Disk) (directory : Path) (content : List UInt8) :
    disk.isDirectory directory = true →
      (name, Node.file content) ∈ disk.list directory →
        (directory.child name ∈ collect disk [directory] ↔
          ∃ file, parse? name = some file)
  decoded (file : FileName) (directory : Path) :
    parse? name = some file →
      isJson (directory.child name).extension = isJson file.extension

theorem agree_iff {name : String} :
    Agree name ↔
      (isCollected name = true ↔ ∃ file, parse? name = some file) ∧
        ∀ file directory, parse? name = some file →
          isJson (Path.child directory name).extension =
            isJson file.extension := by
  constructor
  · intro hagree
    refine ⟨?_, hagree.decoded⟩
    have hlone := hagree.collected ⟨.directory [(name, .file [])], []⟩
      ⟨"", []⟩ [] rfl List.mem_cons_self
    rwa [mem_collect_iff rfl List.mem_cons_self] at hlone
  · intro ⟨hcollected, hdecoded⟩
    refine ⟨fun disk directory content hdirectory hlisted => ?_, hdecoded⟩
    rw [mem_collect_iff hdirectory hlisted, hcollected]

/-- The places that look at an extension agree on a name exactly when something
stands in front of its last dot, no line feed behind it or in the part that is a
name, and no long s in the extension. All that is seen of a disagreement is
told: what is accepted and not collected, what is collected and not accepted,
and what its suffix and its extension have decoded differently. -/
theorem extensions_agree_iff {name : String} (hslash : '/' ∉ name.toList) :
    (isCollected name = false ∧ parse? name = none ∧ Agree name) ∨
      ∃ before after, name.toList = before ++ '.' :: after ∧ '.' ∉ after ∧
        (Agree name ↔
          before ≠ [] ∧ '\n' ∉ (splitStem before).1 ∧ '\n' ∉ after ∧
            'ſ' ∉ after) ∧
        ((∃ file, parse? name = some file) →
          (isCollected name = true ↔
            before ≠ [] ∧ '\n' ∉ after ∧ 'ſ' ∉ after)) ∧
        (isCollected name = true →
          ((∃ file, parse? name = some file) ↔ '\n' ∉ (splitStem before).1)) ∧
        ∀ file (directory : Path), parse? name = some file →
          (isJson (directory.child name).extension = isJson file.extension ↔
            (file.extension = "json" → before ≠ [] ∧ '\n' ∉ after)) ∧
          (isJson (directory.child name).extension = isJson file.extension →
            ∀ disk, read disk (directory.child name) none =
              read disk (directory.child name) (some file.extension)) := by
  -- a name that is neither collected nor accepted need not have a dot to be
  -- divided at
  by_cases heither : isCollected name = true ∨ ∃ file, parse? name = some file
  · right
    have hdot : '.' ∈ name.toList :=
      heither.elim dot_mem_of_isCollected fun ⟨_, hparse⟩ =>
        dot_mem_of_parse? hslash hparse
    obtain ⟨before, after, hname, hafter⟩ := Path.exists_eq_append_of_mem hdot
    have haccepted := isCollected_iff_of_parse? hname hafter hslash
    have hcollected := exists_parse?_iff_of_isCollected hname hafter hslash
    have hdecoded (file : FileName) (directory : Path)
        (hparse : parse? name = some file) :=
      isJson_extension_iff hname hafter hslash hparse directory
    refine ⟨before, after, hname, hafter, ?_, haccepted, hcollected,
      fun file directory hparse =>
        ⟨hdecoded file directory hparse, fun hjson disk =>
          read_eq_of_isJson_eq hjson disk⟩⟩
    rw [agree_iff]
    constructor
    · rintro ⟨hsame, -⟩
      have hboth : isCollected name = true ∧
          ∃ file, parse? name = some file := by
        rcases heither with hown | hown
        · exact ⟨hown, hsame.mp hown⟩
        · exact ⟨hsame.mpr hown, hown⟩
      obtain ⟨hbefore, hline, hlong⟩ := (haccepted hboth.2).mp hboth.1
      exact ⟨hbefore, (hcollected hboth.1).mp hboth.2, hline, hlong⟩
    · rintro ⟨hbefore, hstem, hline, hlong⟩
      refine ⟨⟨fun hown => (hcollected hown).mpr hstem, fun hown =>
        (haccepted hown).mpr ⟨hbefore, hline, hlong⟩⟩,
          fun file directory hparse =>
            (hdecoded file directory hparse).mpr fun _ => ⟨hbefore, hline⟩⟩
  · left
    obtain ⟨hcollected, haccepted⟩ := not_or.mp heither
    have hnone : parse? name = none := by
      simpa [Option.eq_none_iff_forall_not_mem] using haccepted
    exact ⟨Bool.eq_false_iff.mpr hcollected, hnone, agree_iff.mpr
      ⟨iff_of_false hcollected haccepted, fun file _ hparse =>
        absurd ⟨file, hparse⟩ haccepted⟩⟩

/-- A name with several dots in mixed case, and one that is an extension
alone. -/
theorem extensions_agree_iff_names :
    ('/' ∉ "app.v1-svc.YAML".toList ∧ Agree "app.v1-svc.YAML") ∧
      '/' ∉ ".json".toList ∧ ¬Agree ".json" := by
  have hplain : '/' ∉ "app.v1-svc.YAML".toList := by decide
  have hlone : '/' ∉ ".json".toList := by decide
  refine ⟨⟨hplain, ?_⟩, hlone, ?_⟩
  · rcases extensions_agree_iff hplain with
      ⟨-, -, hagree⟩ | ⟨before, after, hname, hafter, hagree, -⟩
    · exact hagree
    · have heq : "app.v1-svc".toList ++ '.' :: "YAML".toList = before ++
          '.' :: after := hname
      obtain ⟨rfl, rfl⟩ :=
        List.append_cons_inj_of_not_mem (by decide) hafter heq
      exact hagree.mpr (by decide)
  · rcases extensions_agree_iff hlone with
      ⟨-, hnone, -⟩ | ⟨before, after, hname, hafter, hagree, -⟩
    · exact absurd hnone (by decide +kernel)
    · have heq : [] ++ '.' :: "json".toList = before ++ '.' :: after := hname
      obtain ⟨rfl, rfl⟩ :=
        List.append_cons_inj_of_not_mem (by decide) hafter heq
      exact fun hown => (hagree.mp hown).1 rfl

/-- Not all names are seen alike: of these only the second is collected, and
only the others are accepted. -/
theorem not_agree_unusual :
    ¬Agree ".json" ∧ ¬Agree "a\nb.yaml" ∧ ¬Agree "app.json\n" ∧
      ¬Agree "app.jſon" := by
  have hnot {name : String}
      (hdiffer : isCollected name ≠ (parse? name).isSome) : ¬Agree name := by
    intro hagree
    refine hdiffer ?_
    rw [Bool.eq_iff_iff, Option.isSome_iff_exists]
    exact (agree_iff.mp hagree).1
  exact ⟨hnot (by decide +kernel), hnot (by decide +kernel),
    hnot (by decide +kernel), hnot (by decide +kernel)⟩

end FragmentFile

end Fragments
