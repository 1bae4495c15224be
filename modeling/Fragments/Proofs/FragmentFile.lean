import Fragments.FragmentFile
import Fragments.Proofs.Json.Newlines
import Fragments.Proofs.Json.RoundTrip
import Fragments.Proofs.Text.Utf8
import Fragments.Proofs.Yaml.Documents
import Fragments.Proofs.Yaml.Legible

namespace Fragments

namespace Json

mutual

theorem outlined_toValue (outlines : Nat → List (Scalar × Option Scalar)) :
    ∀ json : Json, json.toValue.Outlined outlines
  | null | bool _ | int _ | float _ | text _ => trivial
  | array items => outlined_toValues outlines items
  | object entries =>
      ⟨fun _ hlabel => (nomatch hlabel), outlined_toFields outlines entries⟩

theorem outlined_toValues (outlines : Nat → List (Scalar × Option Scalar)) :
    ∀ items : List Json, Value.OutlinedItems outlines (toValues items)
  | [] => trivial
  | item :: rest =>
      ⟨outlined_toValue outlines item, outlined_toValues outlines rest⟩

theorem outlined_toFields (outlines : Nat → List (Scalar × Option Scalar)) :
    ∀ entries : List (String × Json), Value.OutlinedEntries outlines
      (toFields entries)
  | [] => trivial
  | (_, value) :: rest =>
      ⟨outlined_toValue outlines value, outlined_toFields outlines rest⟩

end

theorem coherent_of_toValue_eq {json : Json} {label : Option Nat}
    {entries : List (Scalar × Value)}
    (hvalue : json.toValue = .mapping label entries) :
    (Fragment.mk label entries).Coherent fun _ => [] := by
  have houtlined := json.outlined_toValue fun _ => []
  rw [hvalue] at houtlined
  refine ⟨houtlined.2, fun _ => List.nodup_nil, ?_⟩
  cases json with
  | object fields =>
      cases hvalue
      exact fun _ _ heq => nomatch heq
  | null | bool _ | int _ | float _ | text _ | array _ => cases hvalue

end Json

namespace FragmentFile

theorem coherent_of_decode_eq {path : Path} {extension : String}
    {chars : List Char} {label : Option Nat} {entries : List (Scalar × Value)}
    (hdecode : decode path extension chars = .ok (.mapping label entries)) :
    ∃ outlines, (Fragment.mk label entries).Coherent outlines := by
  unfold decode at hdecode
  split at hdecode
  · unfold decodeJson at hdecode
    split at hdecode
    · cases hdecode
    · split at hdecode
      · next json _ =>
          exact ⟨_, Json.coherent_of_toValue_eq (Except.ok.inj hdecode)⟩
      · cases hdecode
      · cases hdecode
  · unfold decodeYaml at hdecode
    split at hdecode
    · next value hread =>
        cases hdecode
        exact Yaml.coherent_of_read_eq hread
    · cases hdecode
    · cases hdecode

theorem coherent_of_read_eq {disk : Disk} {path : Path}
    {extension : Option String} {fragment : Fragment}
    (hread : read disk path extension = .ok fragment) :
    ∃ outlines, fragment.Coherent outlines := by
  obtain ⟨chars, -, hread⟩ := bind_eq_ok_iff.mp hread
  obtain ⟨value, hdecode, hvalue⟩ := bind_eq_ok_iff.mp hread
  unfold ofValue at hvalue
  split at hvalue
  · cases hvalue
    exact ⟨fun _ => [], trivial, fun _ => List.nodup_nil, fun hmem =>
      nomatch hmem⟩
  · cases hvalue
    exact coherent_of_decode_eq hdecode
  · cases hvalue

theorem decodeJson_of_write_eq {entries : List (String × Json)} {text : String}
    (hkeys : (Json.object entries).DistinctKeys)
    (hheight : (Json.object entries).height ≤ Json.nestingLimit)
    (hwrite : Json.write (.object entries) = .ok text) (path : Path) :
    decodeJson path text.toList =
      .ok (.mapping none (Json.toFields entries)) := by
  have hread := Json.read_write hkeys hheight hwrite
  obtain ⟨-, rfl⟩ := Json.write_eq_ok_iff.mp hwrite
  have hhead : (Json.layAt 0 (.object entries)).toList.head? = some '\x7b' := by
    rw [Json.layAt]
    exact Json.head?_layOut rfl _ _ _
  have hblank : (Json.layAt 0 (.object entries)).toList.all Text.isBlank =
      false :=
    List.all_eq_false.mpr ⟨_, List.mem_of_mem_head? hhead, by decide⟩
  rw [decodeJson, hblank, hread]
  rfl

theorem readText_of_return_not_mem {disk : Disk} {path : Path}
    {chars : List Char}
    (hcontent : disk.read path = .ok (some (Utf8.encode chars)))
    (hreturn : '\r' ∉ chars) :
    readText disk path = .ok chars := by
  rw [readText, hcontent]
  simp only [orFault, bind, Except.bind, Utf8.decode_encode,
    Text.normaliseNewlines_of_not_mem hreturn]

theorem read_of_write_eq {disk : Disk} {path : Path}
    {entries : List (String × Json)} {text : String}
    (hkeys : (Json.object entries).DistinctKeys)
    (hheight : (Json.object entries).height ≤ Json.nestingLimit)
    (hwrite : Json.write (.object entries) = .ok text)
    (hcontent : disk.read path = .ok (some (Utf8.encode text.toList))) :
    read disk path (some "json") = .ok ⟨none, Json.toFields entries⟩ := by
  have hreturn : '\r' ∉ text.toList := by
    obtain ⟨-, rfl⟩ := Json.write_eq_ok_iff.mp hwrite
    exact Json.return_not_mem_layAt _ _
  have hjson : isJson "json" = true := by decide
  rw [read, readText_of_return_not_mem hcontent hreturn]
  simp only [bind, Except.bind, Option.getD_some, decode, hjson, if_true,
    decodeJson_of_write_eq hkeys hheight hwrite, ofValue]

section

variable {disk : Disk} {path : Path} {entries : List (String × Json)}
  (hfits : Json.fieldsFit entries = true)
  (hcontent : disk.read path =
    .ok (some (Utf8.encode (Yaml.document (.object entries)).toList)))
include hfits hcontent

theorem read_eq_decodeYaml :
    read disk path (some "yaml") =
      (decodeYaml path (Yaml.document (.object entries)).toList >>=
        ofValue path) := by
  have hprinted :=
    Yaml.printed_of_mem_document
      (show (Json.object entries).fits = true from hfits)
  have hreturn : '\r' ∉ (Yaml.document (.object entries)).toList := fun hmem =>
    (hprinted '\r' hmem).1.1 rfl
  have hyaml : isJson "yaml" = false := by decide
  rw [read, readText_of_return_not_mem hcontent hreturn]
  simp only [bind, Except.bind, Option.getD_some, decode, hyaml,
    Bool.false_eq_true, if_false]

theorem read_of_document (hnonempty : entries ≠ [])
    (hheight : (Json.object entries).height ≤ Yaml.nestingLimit)
    (hkeys : Yaml.entriesFitKeys entries = true) :
    read disk path (some "yaml") =
      .ok ⟨none, Json.toFields
        (Json.uniqueEntries
          (Json.mergedFields (Yaml.heardEntries 0 entries)))⟩ := by
  rw [read_eq_decodeYaml hfits hcontent, decodeYaml,
    Yaml.read_document hnonempty hfits hheight hkeys]
  rfl

theorem read_of_document_ne_ok (hnonempty : entries ≠ [])
    (hkeys : Yaml.entriesFitKeys entries = false) (fragment : Fragment) :
    read disk path (some "yaml") ≠ .ok fragment := by
  rw [read_eq_decodeYaml hfits hcontent, decodeYaml]
  cases hread : Yaml.read (Yaml.document (.object entries)).toList with
  | ok value =>
      exact absurd hread (Yaml.read_document_ne_ok hnonempty hfits hkeys value)
  | error trouble => cases trouble <;> exact nofun

/-- An object that was written as YAML is read back exactly when all its keys
can be found again and all its texts are legible. -/
theorem read_of_document_eq_iff (hnonempty : entries ≠ [])
    (hheight : (Json.object entries).height ≤ Yaml.nestingLimit)
    (hkeys : (Json.object entries).DistinctKeys) :
    read disk path (some "yaml") = .ok ⟨none, Json.toFields entries⟩ ↔
      Yaml.entriesFitKeys entries = true ∧
        Yaml.legibleEntries 0 entries = true := by
  rw [← Yaml.merged_heardEntries_eq_iff hkeys]
  cases hfound : Yaml.entriesFitKeys entries with
  | true =>
      rw [read_of_document hfits hcontent hnonempty hheight hfound,
        Except.ok.injEq, Fragment.mk.injEq, Json.merged, Json.object.injEq]
      constructor
      · rintro ⟨-, hsame⟩
        exact ⟨rfl, Json.toFields_inj hsame⟩
      · rintro ⟨-, hsame⟩
        exact ⟨rfl, congrArg Json.toFields hsame⟩
  | false =>
      exact iff_of_false
        (read_of_document_ne_ok hfits hcontent hnonempty hfound _) fun hboth =>
          nomatch hboth.1

end

end FragmentFile

end Fragments
