import Fragments.Proofs.ResourceList.RoundTrip

namespace Fragments.ResourceList

variable {list : ResourceList} {text : String}

theorem serialize_yaml_eq_ok (hitems : ∀ item ∈ list.items, item.Converted)
    (hserialize : list.serialize "yaml" = .ok text) :
    ∃ entries, list.toJson = .ok (.object entries) ∧ entries ≠ [] ∧
      Json.fieldsFit entries = true ∧ (Json.object entries).DistinctKeys ∧
      (Json.object entries).height ≤ Yaml.nestingLimit ∧
        text = Yaml.document (.object entries) := by
  have hformat : Format.ofName? "yaml" = some .yaml := by decide
  rw [serialize, hformat] at hserialize
  obtain ⟨json, htree, hwrite⟩ := bind_eq_ok_iff.mp hserialize
  have hwrite : Yaml.write json = .ok text := hwrite
  have hkeys := distinctKeys_toJson
    (fun item hmem => (hitems item hmem).keyed) htree
  have hheight :=
    (height_toJson_le htree).trans (show _ ≤ Yaml.nestingLimit by decide)
  obtain ⟨items, -, rfl⟩ := toJson_eq_ok htree
  unfold Yaml.write at hwrite
  split at hwrite
  · next hfits =>
      exact ⟨_, htree, List.cons_ne_nil _ _, hfits, hkeys, hheight,
        (Except.ok.inj hwrite).symm⟩
  · cases hwrite

/-- Whether all keys of a list can be found again and all its texts are
legible. -/
def isLegible (list : ResourceList) : Bool :=
  match list.toJson with
  | .ok (.object entries) =>
      Yaml.entriesFitKeys entries && Yaml.legibleEntries 0 entries
  | _ => false

theorem isLegible_iff {entries : List (String × Json)}
    (htree : list.toJson = .ok (.object entries)) :
    list.isLegible = true ↔
      Yaml.entriesFitKeys entries = true ∧
        Yaml.legibleEntries 0 entries = true := by
  rw [isLegible, htree, Bool.and_eq_true]

/-- Reading what a list was written as gives the list as data exactly when it is
legible. -/
theorem read_serialize_yaml_iff {disk after : Disk} {path : Path}
    (hitems : ∀ item ∈ list.items, item.Converted)
    (hserialize : list.serialize "yaml" = .ok text)
    (hwrite : disk.write path (Utf8.encode text.toList) = .ok (some after)) :
    ∃ entries, list.toJson = .ok (.object entries) ∧
      (FragmentFile.read after path (some "yaml") =
        .ok ⟨none, Json.toFields entries⟩ ↔
        list.isLegible = true) := by
  obtain ⟨entries, htree, hnonempty, hfits, hkeys, hheight, rfl⟩ :=
    serialize_yaml_eq_ok hitems hserialize
  exact ⟨entries, htree, (FragmentFile.read_of_document_eq_iff hfits
    (Disk.read_write hwrite) hnonempty hheight hkeys).trans
    (isLegible_iff htree).symm⟩

/-- Converts a fragment, writes the list of it to a file and says whether the
list is legible. -/
def legibility? (fragment : Fragment) (path : Path) : Option Bool := do
  let resource ← (Resource.ofFragment fragment path.text).toOption
  let text ← ((ofItems [resource]).serialize "yaml").toOption
  let after? ← (settingsDisk.write path (Utf8.encode text.toList)).toOption
  after?.map fun _ => (ofItems [resource]).isLegible

theorem legibility?_eq_some {fragment : Fragment} {path : Path} {legible : Bool}
    (hlegibility : legibility? fragment path = some legible) :
    ∃ resource text after,
      Resource.ofFragment fragment path.text = .ok resource ∧
      (ofItems [resource]).serialize "yaml" = .ok text ∧
      settingsDisk.write path (Utf8.encode text.toList) = .ok (some after) ∧
      (ofItems [resource]).isLegible = legible := by
  obtain ⟨resource, hresource, hlegibility⟩ :=
    Option.bind_eq_some_iff.mp hlegibility
  obtain ⟨text, htext, hlegibility⟩ := Option.bind_eq_some_iff.mp hlegibility
  obtain ⟨written, hwritten, hlegibility⟩ :=
    Option.bind_eq_some_iff.mp hlegibility
  obtain ⟨after, rfl, hlegible⟩ := Option.map_eq_some_iff.mp hlegibility
  exact ⟨resource, text, after, toOption_eq_some_iff.mp hresource,
    toOption_eq_some_iff.mp htext, toOption_eq_some_iff.mp hwritten, hlegible⟩

def settingsYamlPath : Path := ⟨"", ["settings.yaml"]⟩

theorem read_serialize_yaml_iff_settings :
    ∃ resource text after,
      Resource.ofFragment settings "settings.yaml" = .ok resource ∧
      (ofItems [resource]).serialize "yaml" = .ok text ∧
      settingsDisk.write settingsYamlPath (Utf8.encode text.toList) =
        .ok (some after) ∧
      ∃ entries, (ofItems [resource]).toJson = .ok (.object entries) ∧
        FragmentFile.read after settingsYamlPath (some "yaml") =
          .ok ⟨none, Json.toFields entries⟩ := by
  have hlegibility : legibility? settings settingsYamlPath = some true := by
    decide +kernel
  obtain ⟨resource, text, after, hresource, hserialize, hwrite, hlegible⟩ :=
    legibility?_eq_some hlegibility
  have hitems : ∀ item ∈ (ofItems [resource]).items, item.Converted :=
    fun item hmem => by
      cases List.mem_singleton.mp hmem
      exact ⟨settings, "settings.yaml", by
        decide +kernel, by decide +kernel, hresource⟩
  obtain ⟨entries, htree, hread⟩ :=
    read_serialize_yaml_iff hitems hserialize hwrite
  exact ⟨resource, text, after, hresource, hserialize, hwrite, entries, htree,
    hread.mpr hlegible⟩

def torn : Fragment where
  label := none
  entries :=
    [(.text "kind", .text "ConfigMap"),
      (.text "data", .mapping none [(.text "motto", .text "a\u0085b")])]

theorem not_forall_read_serialize_yaml :
    ¬∀ (list : ResourceList) (text : String) (disk after : Disk) (path : Path),
      (∀ item ∈ list.items, item.Converted) → list.serialize "yaml" = .ok text →
        disk.write path (Utf8.encode text.toList) = .ok (some after) →
          ∃ entries, list.toJson = .ok (.object entries) ∧
            FragmentFile.read after path (some "yaml") =
              .ok ⟨none, Json.toFields entries⟩ := by
  intro hall
  have hlegibility : legibility? torn settingsYamlPath = some false := by
    decide +kernel
  obtain ⟨resource, text, after, hresource, hserialize, hwrite, hillegible⟩ :=
    legibility?_eq_some hlegibility
  have hitems : ∀ item ∈ (ofItems [resource]).items, item.Converted :=
    fun item hmem => by
      cases List.mem_singleton.mp hmem
      exact ⟨torn, "settings.yaml", by
        decide +kernel, by decide +kernel, hresource⟩
  obtain ⟨entries, htree, hread⟩ :=
    hall _ text settingsDisk after _ hitems hserialize hwrite
  obtain ⟨others, hsame, hnonempty, hfits, hkeys, hheight, rfl⟩ :=
    serialize_yaml_eq_ok hitems hserialize
  cases htree.symm.trans hsame
  have hlegible := (isLegible_iff htree).mpr
    ((FragmentFile.read_of_document_eq_iff hfits (Disk.read_write hwrite)
      hnonempty hheight hkeys).mp hread)
  rw [hillegible] at hlegible
  cases hlegible

end Fragments.ResourceList
