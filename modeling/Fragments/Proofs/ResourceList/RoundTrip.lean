import Fragments.Proofs.Disk
import Fragments.Proofs.FragmentFile
import Fragments.Proofs.Resource.Depth
import Fragments.ResourceList

namespace Fragments.ResourceList

variable {list : ResourceList} {json : Json} {text : String}

theorem toJson_eq_ok (htree : list.toJson = .ok json) :
    ∃ items, list.items.mapM Resource.toJson = .ok items ∧
      json = .object
        [("apiVersion", .text list.apiVersion), ("kind", .text list.kind),
          ("items", .array items)] := by
  obtain ⟨items, hitems, heq⟩ := bind_eq_ok_iff.mp htree
  cases heq
  exact ⟨items, hitems, rfl⟩

theorem distinctKeys_toJson (hkeyed : ∀ item ∈ list.items, item.Keyed)
    (htree : list.toJson = .ok json) : json.DistinctKeys := by
  obtain ⟨items, hitems, rfl⟩ := toJson_eq_ok htree
  have hnames : ["apiVersion", "kind", "items"].Nodup := by decide
  refine Json.distinctKeys_object_iff.mpr ⟨hnames, ?_⟩
  simp only [List.forall_mem_cons, List.not_mem_nil, false_imp_iff,
    implies_true, and_true]
  refine ⟨trivial, trivial, Json.distinctKeys_array_iff.mpr fun item hmem => ?_⟩
  obtain ⟨resource, hresource, hdump⟩ := exists_of_mem_mapM hitems hmem
  exact Resource.distinctKeys_toJson (hkeyed resource hresource) hdump

theorem height_toJson_le (htree : list.toJson = .ok json) :
    json.height ≤ Resource.depthLimit + 4 := by
  obtain ⟨items, hitems, rfl⟩ := toJson_eq_ok htree
  have hall : Json.heightOfItems items ≤ Resource.depthLimit + 2 :=
    Json.heightOfItems_le_iff.mpr fun item hmem => by
      obtain ⟨resource, -, hdump⟩ := exists_of_mem_mapM hitems hmem
      exact Resource.height_toJson_le hdump
  refine Nat.succ_le_succ (Json.heightOfFields_le_iff.mpr ?_)
  simp only [List.forall_mem_cons, List.not_mem_nil, false_imp_iff,
    implies_true, and_true]
  exact ⟨show 1 ≤ Resource.depthLimit + 3 by
    decide, show 1 ≤ Resource.depthLimit + 3 by decide, Nat.succ_le_succ hall⟩

theorem serialize_json_eq_ok (hserialize : list.serialize "json" = .ok text) :
    ∃ json, list.toJson = .ok json ∧ Json.write json = .ok text := by
  have hformat : Format.ofName? "json" = some .json := by decide
  rw [serialize, hformat] at hserialize
  exact bind_eq_ok_iff.mp hserialize

/-- Reading what a list was written as gives the list as data. -/
theorem read_serialize {disk after : Disk} {path : Path}
    (hitems : ∀ item ∈ list.items, item.Converted)
    (hserialize : list.serialize "json" = .ok text)
    (hwrite : disk.write path (Utf8.encode text.toList) = .ok (some after)) :
    ∃ entries, list.toJson = .ok (.object entries) ∧
      FragmentFile.read after path (some "json") =
        .ok ⟨none, Json.toFields entries⟩ := by
  obtain ⟨json, htree, htext⟩ := serialize_json_eq_ok hserialize
  have hkeys := distinctKeys_toJson
    (fun item hmem => (hitems item hmem).keyed) htree
  have hheight :=
    (height_toJson_le htree).trans (show _ ≤ Json.nestingLimit by decide)
  obtain ⟨items, -, rfl⟩ := toJson_eq_ok htree
  exact ⟨_, htree, FragmentFile.read_of_write_eq hkeys hheight htext
    (Disk.read_write hwrite)⟩

def settings : Fragment where
  label := none
  entries :=
    [(.text "kind", .text "ConfigMap"),
      (.text "metadata", .mapping none [(.text "name", .text "settings")]),
      (.text "data",
        .mapping none [(.text "motto", .text "\"ja\"\r\n\tfür \\ alle")]),
      (.text "limits", .list none
        [.scalar (.int (10 ^ 30)), .scalar (.float (.ofDecimal false 1 (-1)))])]

def settingsDisk : Disk := ⟨.directory [], []⟩

def settingsPath : Path := ⟨"", ["settings.json"]⟩

theorem read_serialize_settings :
    ∃ resource text after,
      Resource.ofFragment settings "settings.yaml" = .ok resource ∧
      (ofItems [resource]).serialize "json" = .ok text ∧
      settingsDisk.write settingsPath (Utf8.encode text.toList) =
        .ok (some after) ∧
      ∃ entries, (ofItems [resource]).toJson = .ok (.object entries) ∧
        FragmentFile.read after settingsPath (some "json") =
          .ok ⟨none, Json.toFields entries⟩ := by
  have hwritten :
      ((Resource.ofFragment settings "settings.yaml").toOption.bind
        fun resource =>
          ((ofItems [resource]).serialize "json").toOption.bind fun text =>
            (settingsDisk.write settingsPath
              (Utf8.encode text.toList)).toOption.bind
              (·.map fun _ => ())) = some () := by
    decide +kernel
  obtain ⟨resource, hresource, hwritten⟩ := Option.bind_eq_some_iff.mp hwritten
  obtain ⟨text, htext, hwritten⟩ := Option.bind_eq_some_iff.mp hwritten
  obtain ⟨written, hwrite, hwritten⟩ := Option.bind_eq_some_iff.mp hwritten
  obtain ⟨after, rfl, -⟩ := Option.map_eq_some_iff.mp hwritten
  have hserialize := toOption_eq_some_iff.mp htext
  have hdisk := toOption_eq_some_iff.mp hwrite
  refine ⟨resource, text, after, toOption_eq_some_iff.mp hresource,
    hserialize, hdisk, read_serialize (fun item hmem => ?_) hserialize hdisk⟩
  cases List.mem_singleton.mp hmem
  exact ⟨settings, "settings.yaml", by decide +kernel, by decide +kernel,
    toOption_eq_some_iff.mp hresource⟩

end Fragments.ResourceList
