import Fragments.FragmentFile
import Fragments.Resource
import Fragments.Settings
import Fragments.Yaml.Writer

namespace Fragments

structure ResourceList where
  apiVersion : String
  kind : String
  items : List Resource
  deriving Inhabited

namespace ResourceList

def ofItems (items : List Resource) : ResourceList := ⟨"v1", "List", items⟩

structure Setting where
  registry : Registry
  versioning : Versioning
  defaultName : String
  disk : Disk

def readResource (setting : Setting) (path : Path) :
    Except Problem Resource := do
  let file ← FragmentFile.parseName path.name
  let fragment ← FragmentFile.read setting.disk path (some file.extension)
  match Enrichment.enrich fragment file setting.defaultName setting.versioning
    setting.registry with
  | (enriched, none) => Resource.ofFragment enriched path.text
  | (_, some problem) => .error problem

def readAll (setting : Setting) : List Path → Except Problem (List Resource)
  | [] => .ok []
  | path :: rest =>
      if FileName.isExcluded path.name then readAll setting rest
      else do
        let resource ← readResource setting path
        let resources ← readAll setting rest
        .ok (resource :: resources)

def build (setting : Setting) (paths : List Path) :
    Except Problem ResourceList :=
  (readAll setting paths).map ofItems

def kinds (list : ResourceList) : List String := list.items.map (·.kind)

def names (list : ResourceList) : List (Option String) :=
  list.items.map Resource.name

def toJson (list : ResourceList) : Except Fault Json := do
  let items ← list.items.mapM Resource.toJson
  .ok
    (.object [("apiVersion", .text list.apiVersion), ("kind", .text list.kind),
      ("items", .array items)])

def render (list : ResourceList) (format : Format) : Except Fault String := do
  let json ← list.toJson
  match format with
  | .yaml => Yaml.write json
  | .json => Json.write json

def serialize (list : ResourceList) (format : String) : Except Fault String :=
  match Format.ofName? format with
  | some format => list.render format
  | none => do
      let _ ← list.toJson
      .error (.value s!"Unsupported output format: {format}")

end ResourceList

end Fragments
