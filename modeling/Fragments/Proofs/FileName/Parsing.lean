import Fragments.Proofs.FileName.Search
import Fragments.Proofs.Text.Case

namespace Fragments

theorem Text.splitAt_ne_nil (p : α → Bool) (xs : List α) :
    Text.splitAt p xs ≠ [] := by
  cases xs with
  | nil => exact List.cons_ne_nil _ _
  | cons x xs =>
      rw [Text.splitAt]
      split
      · exact List.cons_ne_nil _ _
      · split <;> exact List.cons_ne_nil _ _

theorem Text.splitAt_append_cons {p : α → Bool} {mark : α}
    (hmark : p mark = true) (before after : List α) :
    Text.splitAt p (before ++ mark :: after) = Text.splitAt p before ++
    Text.splitAt p after := by
  induction before with
  | nil => simp [Text.splitAt, hmark]
  | cons x before ih =>
      rw [List.cons_append, Text.splitAt, Text.splitAt, ih]
      split
      · rfl
      · cases hpieces : Text.splitAt p before with
        | nil => exact absurd hpieces (Text.splitAt_ne_nil p before)
        | cons piece pieces => rfl

theorem Text.split_append {separator : Char} {between : String}
    (hbetween : between.toList = [separator]) (before after : String) :
    Text.split separator (before ++ between ++ after) =
      Text.split separator before ++ Text.split separator after := by
  have hchars : (before ++ between ++ after).toList =
      before.toList ++ separator :: after.toList := by
    simp [hbetween]
  rw [Text.split, hchars, Text.splitAt_append_cons (by simp), List.map_append]
  rfl

theorem Path.name_ofText_append (directory : String) {text : String}
    (hslash : '/' ∉ text.toList) (hempty : text ≠ "") (hdot : text ≠ ".") :
    (Path.ofText (directory ++ "/" ++ text)).name = text := by
  have hsplit : Text.split '/' (directory ++ "/" ++ text) =
      Text.split '/' directory ++ [text] := by
    rw [Text.split_append rfl, Text.split_of_not_mem hslash]
  simp [Path.ofText, Path.name, hsplit, hempty, hdot]

namespace FileName

theorem spells_toLower (c : Char) : spells c.toLower c = true := by
  cases hupper : Text.isUpperAscii c with
  | true => simp [spells, hupper, (Text.toLower_of_isUpperAscii hupper).2]
  | false => simp [spells, Text.toLower_of_not_isUpperAscii hupper]

theorem spellsWord_toLower (chars : List Char) :
    spellsWord (chars.map Char.toLower) chars = true := by
  induction chars with
  | nil => rfl
  | cons c rest ih =>
      rw [List.map_cons, spellsWord, spells_toLower, ih]
      rfl

theorem toList_toLower (text : String) :
    text.toLower.toList = text.toList.map Char.toLower := by
  rw [show text.toLower = text.map Char.toLower from rfl, String.toList_map]

theorem exists_spells_of_toLower_mem {extension : String}
    (hextension : extension.toLower ∈ ["yaml", "yml", "json"]) :
    ∃ word ∈ extensions, spellsWord word extension.toList = true := by
  refine ⟨extension.toList.map Char.toLower, ?_, spellsWord_toLower _⟩
  rw [← toList_toLower]
  change extension.toLower.toList ∈ ["yaml", "yml", "json"].map String.toList
  exact List.mem_map_of_mem hextension

theorem lower_of_toLower_mem {extension : String}
    (hextension : extension.toLower ∈ ["yaml", "yml", "json"]) :
    Text.lower extension = extension.toLower := by
  have hwords : (["yaml", "yml", "json"].all fun word =>
      word.toList.all fun c => decide (c.toNat < 128)) = true := by decide
  simp only [List.all_eq_true, decide_eq_true_eq] at hwords
  refine Text.lower_of_ascii fun c hc => Text.toNat_lt_of_toLower ?_
  refine hwords _ hextension c.toLower ?_
  rw [toList_toLower]
  exact List.mem_map_of_mem hc

theorem splitStem_typed (name : String) {token : String} (htoken : token ≠ "")
    (hdash : '-' ∉ token.toList) :
    splitStem (name ++ "-" ++ token).toList =
      (name.toList, some token.toList) := by
  have hchars : (name ++ "-" ++ token).toList = name.toList ++
      '-' :: token.toList := by simp
  rw [hchars, splitStem_append hdash (by simpa using htoken)]

section

variable {stem extension : String} (hslash : '/' ∉ stem.toList)
  (hextension : extension.toLower ∈ ["yaml", "yml", "json"])

include hslash hextension

theorem plain_of_toLower_mem : '/' ∉ (stem ++ "." ++ extension).toList ∧
    stem ++ "." ++ extension ≠ "" ∧ stem ++ "." ++ extension ≠ "." := by
  obtain ⟨word, hknown, hspells⟩ := exists_spells_of_toLower_mem hextension
  have hchars : (stem ++ "." ++ extension).toList = stem.toList ++
      '.' :: extension.toList := by simp
  refine ⟨?_, fun hempty => ?_, fun hdot => ?_⟩
  · rw [hchars]
    simp [hslash, not_mem_of_spells_extension hknown hspells]
  · simp [hempty] at hchars
  · have hwords : ∀ word ∈ extensions, word ≠ [] := by decide
    have hlength := congrArg List.length hchars
    have hsame := length_of_spellsWord hspells
    have hpos := List.length_pos_iff.mpr (hwords word hknown)
    simp [hdot] at hlength
    omega

theorem parse?_append_slash (directory : String) :
    parse? (directory ++ "/" ++ (stem ++ "." ++ extension)) =
      parse? (stem ++ "." ++ extension) := by
  obtain ⟨hplain, hempty, hdot⟩ := plain_of_toLower_mem hslash hextension
  simp only [parse?, Path.name_ofText_append directory hplain hempty hdot,
    Path.name_ofText hplain hempty hdot]

theorem parse?_eq_of_splitStem {name : List Char} {token : Option (List Char)}
    (hstem : splitStem stem.toList = (name, token)) (hline : '\n' ∉ name) :
    parse? (stem ++ "." ++ extension) =
      some ⟨stem ++ "." ++ extension, String.ofList name,
        token.map String.ofList, extension.toLower⟩ := by
  obtain ⟨hplain, hempty, hdot⟩ := plain_of_toLower_mem hslash hextension
  have hspells := exists_spells_of_toLower_mem hextension
  have hchars : (stem ++ "." ++ extension).toList = stem.toList ++
      '.' :: extension.toList := by simp
  have hend : dropFinalNewline
      (stem.toList ++ '.' :: (extension.toList ++ [])) =
      stem.toList ++ '.' :: extension.toList :=
    dropFinalNewline_append hspells rfl
  have hkept : dropFinalNewline (stem ++ "." ++ extension).toList =
      stem.toList ++ '.' :: extension.toList := by
    simpa [hchars] using hend
  have hsplit := splitExtension?_eq_some_iff.mpr ⟨hkept, hspells⟩
  rw [parse?, Path.name_ofText hplain hempty hdot, hsplit]
  simp [hstem, hline, lower_of_toLower_mem hextension]

end

def Match.fileName (base : String) (found : Match) : FileName where
  fileName := base
  name := String.ofList found.name
  typeToken := found.token.map String.ofList
  extension := Text.lower (String.ofList found.written)

/-- Searching for the shape of a name finds what dividing it does, for every
text. -/
theorem parse?_eq_head?_ways (text : String) :
    parse? text =
      (ways (Path.ofText text).name.toList).head?.map
        (Match.fileName (Path.ofText text).name) := by
  rw [parse?, head?_ways]
  cases splitExtension? (dropFinalNewline (Path.ofText text).name.toList) with
  | none => rfl
  | some parts =>
      simp only [Option.bind_eq_bind, Option.bind_some]
      split <;> rfl

/-- The name of a file ends at the last dash of its stem when a type follows
there, and else with the stem, whatever the stem holds besides and in whatever
directory the file is; it is the first way to read the name, tried from the
shortest one on. -/
theorem parse?_divided {stem extension : String} (hslash : '/' ∉ stem.toList)
    (hextension : extension.toLower ∈ ["yaml", "yml", "json"]) :
    (∀ name token, stem = name ++ "-" ++ token → token ≠ "" →
        '-' ∉ token.toList → '\n' ∉ name.toList →
        parse? (stem ++ "." ++ extension) =
          some ⟨stem ++ "." ++ extension, name, some token,
            extension.toLower⟩) ∧
      ('\n' ∉ stem.toList →
        '-' ∉ stem.toList ∨ stem.toList.getLast? = some '-' →
        parse? (stem ++ "." ++ extension) =
          some ⟨stem ++ "." ++ extension, stem, none, extension.toLower⟩) ∧
      (∀ directory, parse? (directory ++ "/" ++ (stem ++ "." ++ extension)) =
        parse? (stem ++ "." ++ extension)) ∧
      parse? (stem ++ "." ++ extension) =
        (ways (stem ++ "." ++ extension).toList).head?.map
          (Match.fileName (stem ++ "." ++ extension)) := by
  refine ⟨?_, ?_, parse?_append_slash hslash hextension, ?_⟩
  · rintro name token rfl htoken hdash hline
    simpa using
      parse?_eq_of_splitStem hslash hextension
        (splitStem_typed name htoken hdash) hline
  · intro hline hdash
    simpa using parse?_eq_of_splitStem hslash hextension
      (splitStem_of_no_type hdash) hline
  · obtain ⟨hplain, hempty, hdot⟩ := plain_of_toLower_mem hslash hextension
    rw [parse?_eq_head?_ways, Path.name_ofText hplain hempty hdot]

/-- A stem with several dashes, dots and a piece that looks like an extension,
and one that ends in a dash, below directories. -/
theorem parse?_divided_dashes :
    parse? "a-dir.yml/../-my.json-cool-app.v1.YmL" =
        some ⟨"-my.json-cool-app.v1.YmL", "-my.json-cool",
          some "app.v1", "yml"⟩ ∧
      parse? "conf.d//v1.yaml-svc-.JSON" =
        some ⟨"v1.yaml-svc-.JSON", "v1.yaml-svc-", none, "json"⟩ := by
  constructor
  · have hslash : '/' ∉ "-my.json-cool-app.v1".toList := by decide
    have hextension : "YmL".toLower ∈ ["yaml", "yml", "json"] := by
      decide +kernel
    have hall := parse?_divided hslash hextension
    exact ((hall.2.2.1 "a-dir.yml/..").trans
      (hall.1 "-my.json-cool" "app.v1" rfl (by decide) (by decide)
        (by decide))).trans
        (by decide +kernel)
  · have hslash : '/' ∉ "v1.yaml-svc-".toList := by decide
    have hextension : "JSON".toLower ∈ ["yaml", "yml", "json"] := by
      decide +kernel
    have hall := parse?_divided hslash hextension
    exact ((hall.2.2.1 "conf.d/").trans
      (hall.2.1 (by decide) (.inr (by decide)))).trans
      (by decide +kernel)

end FileName

end Fragments
