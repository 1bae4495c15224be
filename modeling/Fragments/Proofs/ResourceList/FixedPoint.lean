import Fragments.Proofs.Enrichment.Complete
import Fragments.Proofs.Resource.FixedPoint
import Fragments.Proofs.ResourceList.Frame

namespace Fragments

namespace Resource

variable {resource : Resource} {entries : List (String × Json)}

theorem name_of_readMetadata {entries : List (Scalar × Value)}
    {metadata : Metadata} (hread : readMetadata entries = .ok metadata)
    (hname : (Value.present? entries "name").isSome) :
    metadata.name.isSome := by
  obtain ⟨parts, hparts, rfl⟩ := map_eq_ok_iff.mp hread
  obtain ⟨hfirst, -⟩ := both_eq_ok_iff.mp hparts
  obtain ⟨value, hvalue⟩ := Option.isSome_iff_exists.mp hname
  rw [Value.field?_of_present?_eq_some hvalue] at hfirst
  change parts.1.isSome
  unfold readOptional at hfirst
  split at hfirst
  · next heq => cases heq
  · next heq =>
      cases heq
      rw [Value.present?, Value.field?_of_present?_eq_some hvalue] at hvalue
      cases hvalue
  · obtain ⟨text, -, heq⟩ := map_eq_ok_iff.mp hfirst
    rw [← heq]
    rfl

theorem present?_name_typedEntries {metadata : Metadata}
    (hname : metadata.name.isSome) (extras : List (String × Json)) :
    (Value.present? (Json.toFields (typedEntries metadata ++ extras))
      "name").isSome := by
  obtain ⟨name, hname⟩ := Option.isSome_iff_exists.mp hname
  have hget : Entries.get? (typedEntries metadata ++ extras) "name" =
      some (.text name) := by
    simp only [typedEntries, Entries.get?_append, get?_textField, if_true,
      hname, Option.map_some, Option.some_or]
  rw [Json.present?_toFields hget
    (by simp [Json.toValue, Value.text, Value.null])]
  rfl

theorem complete_dumped (hapart : resource.Apart)
    (hdump : toJson resource = .ok (.object entries))
    (hversion : (Entries.get? entries "apiVersion").isSome)
    (hname : resource.metadata.name.isSome) :
    (Fragment.mk none (Json.toFields entries)).Complete := by
  obtain ⟨version, metadata, extras, -, -, -, -, rfl⟩ :=
    toJson_eq_ok_of_version hapart hdump hversion
  exact ⟨⟨resource.kind, rfl⟩, rfl, none, _, rfl,
    present?_name_typedEntries hname metadata⟩

theorem hasTooLong_dumped (hapart : resource.Apart)
    (hdump : toJson resource = .ok (.object entries))
    (hversion : (Entries.get? entries "apiVersion").isSome) :
    hasTooLong ⟨none, Json.toFields entries⟩ = false := by
  obtain ⟨version, metadata, extras, -, hextras, -, -, rfl⟩ :=
    toJson_eq_ok_of_version hapart hdump hversion
  have hmetadata :
      Enrichment.metadataEntries
        ⟨none, Json.toFields
          ([("apiVersion", Json.text version), ("kind", .text resource.kind),
      ("metadata", .object (typedEntries resource.metadata ++ metadata))] ++
            extras)⟩ =
        Json.toFields (typedEntries resource.metadata ++ metadata) := rfl
  obtain ⟨hname, hnamespace, hlabels, hannotations⟩ :=
    field?_typedEntries hapart.metadata hextras
  have htext : ∀ text : Option String,
      ((text.map fun text => (Json.text text).toValue).map valueTooLong).getD
        false = false := by
    intro text
    cases text <;> rfl
  have htexts : ∀ pairs : List (String × String),
      (Json.toFields (pairs.map fun pair => (pair.1, Json.text pair.2))).any
        (fun entry => isTooLong entry.1 || valueTooLong entry.2) = false := by
    intro pairs
    rw [Json.toFields_eq_map, List.any_eq_false]
    intro entry hmem
    obtain ⟨own, hown, rfl⟩ := List.mem_map.mp hmem
    obtain ⟨pair, -, rfl⟩ := List.mem_map.mp hown
    simp [isTooLong, valueTooLong, Json.toValue, Value.text]
  simp only [hasTooLong, hmetadata, List.any_cons, List.any_nil, Bool.or_false,
    hname, hnamespace, hlabels, hannotations, htext]
  cases resource.metadata.labels <;> cases resource.metadata.annotations <;>
    simp [Json.toValue, htexts]

end Resource

namespace ResourceList

/-- A resource that was read from a file and shows its version in its dump is
left alone when that dump is enriched, under any file name with a known type,
and converted again. -/
theorem readResource_fixed {setting : Setting} {path : Path}
    {resource : Resource} {entries : List (String × Json)}
    (hresource : readResource setting path = .ok resource)
    (hdump : resource.toJson = .ok (.object entries))
    (hversion : (Entries.get? entries "apiVersion").isSome) {file : FileName}
    {registry : Registry}
    (htype : ∀ token, file.typeToken = some token →
      (registry.kindOf? token).isSome)
    (versioning : Versioning) (appName place : String) :
    Enrichment.enrich ⟨none, Json.toFields entries⟩ file appName
        versioning registry =
      (⟨none, Json.toFields entries⟩, none) ∧
      ∃ again,
        Resource.ofFragment ⟨none, Json.toFields entries⟩ place = .ok again ∧
        again.toJson = .ok (.object entries) := by
  obtain ⟨own, fragment, -, -, hdone, hconverted⟩ :=
    readResource_eq_ok hresource
  have hread := Resource.read_eq_ok_of_ofFragment_eq hconverted
  have hapart := Resource.apart_read hread
  obtain ⟨label, metadata, hfield, hnamed⟩ := Enrichment.named_of_enrich hdone
    fun label => Resource.not_back_of_toJson_eq hread hdump label
  obtain ⟨-, -, hmetadata, -⟩ := Resource.read_eq_ok hread
  rw [Resource.readMetadataOf, hfield] at hmetadata
  have hname := Resource.name_of_readMetadata hmetadata hnamed
  refine ⟨Enrichment.enrich_of_complete
    (Resource.complete_dumped hapart hdump hversion hname) htype appName
      versioning, ?_⟩
  obtain ⟨again, hagain, hsame⟩ := Resource.read_dumped hapart hdump hversion
  refine ⟨again, ?_, hsame⟩
  rw [Resource.ofFragment,
    Resource.hasTooLong_dumped hapart hdump hversion, hagain]
  rfl

def looseContent : String :=
  "metadata:\n  labels: \x7btier: 3, 1: 2.50\x7d\n" ++
    "spec:\n  ports: !!set \x7b80, 443\x7d\n  7: ~\n"

def looseSetting : Setting where
  registry := Registry.empty.addAll [⟨"Service", ["svc"]⟩]
  versioning := Versioning.standard
  defaultName := "app"
  disk :=
    ⟨.directory [("web-svc.yaml", .file (Utf8.encode looseContent.toList))], []⟩

def loosePath : Path := ⟨"", ["web-svc.yaml"]⟩

theorem readResource_fixed_loose :
    let file : FileName := ⟨"db-dc.json", "db", some "dc", "json"⟩
    let registry := Registry.empty.addAll [⟨"DeploymentConfig", ["dc"]⟩]
    FileName.parse? "db-dc.json" = some file ∧ ∃ resource entries,
      readResource looseSetting loosePath = .ok resource ∧
      resource.toJson = .ok (.object entries) ∧
      (Entries.get? entries "apiVersion").isSome ∧
      Enrichment.enrich ⟨none, Json.toFields entries⟩ file "other"
          (Versioning.standard.withOverrides [(.text "Service", .text "v9")])
          registry =
        (⟨none, Json.toFields entries⟩, none) ∧
      ∃ again,
        Resource.ofFragment ⟨none, Json.toFields entries⟩ "db-dc.json" =
          .ok again ∧
        again.toJson = .ok (.object entries) := by
  intro file registry
  have hread : ((readResource looseSetting loosePath).toOption.bind
      fun resource =>
        resource.toJson.toOption.bind fun json => (json.field? "apiVersion").map
          fun _ => ()) =
          some () := by
    decide +kernel
  obtain ⟨resource, hresource, hread⟩ := Option.bind_eq_some_iff.mp hread
  obtain ⟨json, hjson, hread⟩ := Option.bind_eq_some_iff.mp hread
  obtain ⟨version, hfield, -⟩ := Option.map_eq_some_iff.mp hread
  cases json with
  | object entries =>
      have hdump := toOption_eq_some_iff.mp hjson
      have hversion : (Entries.get? entries "apiVersion").isSome :=
        Option.isSome_of_eq_some hfield
      have htype : ∀ token, file.typeToken = some token →
          (registry.kindOf? token).isSome := by
        intro token htoken
        cases htoken
        decide +kernel
      exact ⟨by
        decide +kernel, resource, entries, toOption_eq_some_iff.mp hresource,
          hdump, hversion,
          readResource_fixed (toOption_eq_some_iff.mp hresource) hdump
            hversion htype
          _ "other" "db-dc.json"⟩
  | _ => cases hfield

end ResourceList

end Fragments
