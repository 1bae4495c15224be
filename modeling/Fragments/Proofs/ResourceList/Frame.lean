import Fragments.Proofs.Enrichment.Frame
import Fragments.Proofs.FragmentFile
import Fragments.Proofs.Resource.Reading
import Fragments.Proofs.Resource.Shown
import Fragments.ResourceList

namespace Fragments.ResourceList

open Resource

theorem readResource_eq_ok {setting : Setting} {path : Path}
    {resource : Resource}
    (hresource : readResource setting path = .ok resource) :
    ∃ file fragment, FragmentFile.parseName path.name = .ok file ∧
      FragmentFile.read setting.disk path (some file.extension) = .ok fragment ∧
      (Enrichment.enrich fragment file setting.defaultName setting.versioning
        setting.registry).2 = none ∧
      Resource.ofFragment (Enrichment.enrich fragment file setting.defaultName
        setting.versioning setting.registry).1 path.text = .ok resource := by
  obtain ⟨file, hfile, hrest⟩ := bind_eq_ok_iff.mp hresource
  obtain ⟨fragment, hfragment, hrest⟩ := bind_eq_ok_iff.mp hrest
  refine ⟨file, fragment, hfile, hfragment, ?_⟩
  split at hrest
  · next enriched heq => rw [heq]; exact ⟨rfl, hrest⟩
  · cases hrest

theorem exists_readResource_of_mem_build {setting : Setting} {paths : List Path}
    {list : ResourceList} {resource : Resource}
    (hbuild : build setting paths = .ok list) (hmem : resource ∈ list.items) :
    ∃ path ∈ paths, readResource setting path = .ok resource := by
  obtain ⟨resources, hall, rfl⟩ := map_eq_ok_iff.mp hbuild
  change resource ∈ resources at hmem
  clear hbuild
  induction paths generalizing resources with
  | nil => cases hall; cases hmem
  | cons path rest ih =>
      rw [readAll] at hall
      split at hall
      · obtain ⟨other, hother, hread⟩ := ih resources hall hmem
        exact ⟨other, List.mem_cons_of_mem _ hother, hread⟩
      · obtain ⟨first, hfirst, hrest⟩ := bind_eq_ok_iff.mp hall
        obtain ⟨more, hmore, heq⟩ := bind_eq_ok_iff.mp hrest
        cases heq
        rcases List.mem_cons.mp hmem with rfl | hmem
        · exact ⟨path, List.mem_cons_self, hfirst⟩
        · obtain ⟨other, hother, hread⟩ := ih more hmore hmem
          exact ⟨other, List.mem_cons_of_mem _ hother, hread⟩

section

variable {fragment : Fragment} {outlines : Nat → List (Scalar × Option Scalar)}

/-- Unnamed metadata that make a resource once they are named have room for the
name. -/
theorem takes_name {label : Nat} {enriched : Fragment} {resource : Resource}
    {name : String} (hcoherent : fragment.Coherent outlines)
    {entries : List (Scalar × Value)}
    (hmetadata : fragment.present? "metadata" =
      some (.mapping (some label) entries))
      (hname : Value.present? entries "name" = none)
    (hnamed : Value.field? enriched.entries "metadata" =
      some ((Value.mapping (some label) entries).changeLabelled label
        (Value.assign "name" (.text name))))
    (hread : Resource.read enriched = .ok resource) :
    Takes "name" (outlines label) := by
  have hmem := Value.mem_of_field?_eq_some
    (Value.field?_of_present?_eq_some hmetadata)
  have houtline : Value.outline entries = outlines label :=
    (hcoherent.outlined.of_mem hmem).1 label rfl
  refine ⟨?_, hcoherent.distinct label, ?_⟩
  · obtain ⟨-, -, hmetadataRead, -⟩ := read_eq_ok hread
    rw [readMetadataOf, hnamed, Value.changeLabelled, if_pos rfl]
      at hmetadataRead
    obtain ⟨-, -, hextras⟩ := readMetadata_eq_ok hmetadataRead
    have htexts := (hasTextKeys_of_readExtras_eq hextras).of_assign
    rwa [Value.outline_changeLabelledEntries, houtline] at htexts
  · rw [← houtline]
    exact Value.present?_eq_none_iff.mp hname

theorem dump_touched_eq_iff {value : Value} {name key : String}
    (hcoherent : fragment.Coherent outlines)
    (hvalue : Value.field? fragment.entries key = some value)
    (htakes : ∀ label, fragment.unnamedLabel? = some label →
      Takes "name" (outlines label))
    (hdumped : ∃ json, dump (fragment.touched name value) = .ok json) :
    dump (fragment.touched name value) = dump value ↔
      ¬∃ label, fragment.unnamedLabel? = some label ∧ value.Shows label := by
  cases hlabel : fragment.unnamedLabel? with
  | none => simp [Fragment.touched_of_eq_none hlabel]
  | some label =>
      obtain ⟨json, hdump⟩ := hdumped
      rw [Fragment.touched_of_eq_some hlabel] at hdump ⊢
      obtain ⟨before, hbefore, hsame⟩ :=
        dumpIn_changeLabelled (htakes label hlabel)
          (hcoherent.outlined.of_mem (Value.mem_of_field?_eq_some hvalue)) hdump
      simp only [Option.some.injEq, exists_eq_left', ← hsame]
      rw [hdump, dump, hbefore, Except.ok.injEq, eq_comm]

theorem eq_apiVersionKey_iff (entries : List (Scalar × Value)) {key : String}
    (hversion : key ≠ "apiVersion") :
    key = apiVersionKey entries ↔
      key = "api_version" ∧ (Value.field? entries key).isSome ∧
        Value.field? entries "apiVersion" = none := by
  rw [apiVersionKey]
  simp only [Bool.and_eq_true, Option.isNone_iff_eq_none]
  split
  · next hshort => exact ⟨fun heq => ⟨heq, heq ▸ hshort.2, hshort.1⟩, And.left⟩
  · next hlong =>
      refine ⟨fun heq => absurd heq hversion, ?_⟩
      rintro ⟨rfl, hsome, hnone⟩
      exact absurd ⟨hnone, hsome⟩ hlong

theorem field?_readResource {file : FileName} {appName : String}
    {versioning : Versioning} {registry : Registry} {resource : Resource}
    {json : Json} (hcoherent : fragment.Coherent outlines)
    (hdone : (Enrichment.enrich fragment file appName versioning registry).2 =
      none)
    (hread : Resource.read
      (Enrichment.enrich fragment file appName versioning registry).1 =
      .ok resource)
    (hjson : resource.toJson = .ok json) {key : String}
    (hkey : key ∉ Fragment.identityKeys) :
    (json.field? key).map .ok =
      (Value.field? fragment.entries key).map Resource.dump ↔
      ¬(key = "api_version" ∧ (Value.field? fragment.entries key).isSome ∧
          fragment.LacksVersion file versioning registry) ∧
        ¬∃ value label, Value.field? fragment.entries key = some value ∧
          fragment.unnamedLabel? = some label ∧ value.Shows label := by
  have hkeys := hkey
  simp only [Fragment.identityKeys, List.mem_cons, List.not_mem_nil, or_false,
    not_or] at hkeys
  obtain ⟨hkind, hversion, hmetadata⟩ := hkeys
  have hback : ∀ label, fragment.present? "metadata" ≠ some (.back label) :=
    fun label hback =>
      not_back_of_toJson_eq hread hjson label
        (Enrichment.field?_enrich_back hdone hback)
  obtain ⟨hothers, hlacks, hnamed⟩ :=
    Enrichment.enrich_frame hcoherent hback hdone
  have htakes : ∀ label, fragment.unnamedLabel? = some label →
      Takes "name" (outlines label) := by
    intro label hlabel
    obtain ⟨entries, hmapping, hunnamed⟩ :=
      Fragment.unnamedLabel?_eq_some_iff.mp hlabel
    exact takes_name hcoherent hmapping hunnamed
      (hnamed label entries hlabel hmapping) hread
  have hfield := field?_toJson hread hjson hkind hversion hmetadata
  have htaken := eq_apiVersionKey_iff
    (Enrichment.enrich fragment file appName versioning registry).1.entries
      hversion
  rw [hothers key hkey, Option.isSome_map, hlacks] at htaken
  rw [hothers key hkey] at hfield
  rw [hfield, ← htaken]
  split
  · next hshort =>
      obtain ⟨value, hvalue⟩ :=
        Option.isSome_iff_exists.mp (htaken.mp hshort).2.1
      refine iff_of_false ?_ fun hboth => hboth.1 hshort
      rw [hvalue]
      simp
  · next hlong =>
      rw [if_neg hlong] at hfield
      simp only [hlong, not_false_eq_true, true_and]
      cases hvalue : Value.field? fragment.entries key with
      | none => simp
      | some value =>
          rw [hvalue] at hfield
          obtain ⟨found, -, hdump⟩ := Option.map_eq_some_iff.mp hfield
          have hsame := dump_touched_eq_iff hcoherent hvalue htakes
            ⟨found, hdump.symm⟩
          simpa using hsame

/-- In a built list, every field of a resource besides its identity is the one
of its file, except for what mentions metadata that had to be named, and for a
short version that was needed. -/
theorem field?_build {setting : Setting} {paths : List Path}
    {list : ResourceList} {resource : Resource} {json : Json}
    (hbuild : build setting paths = .ok list) (hmem : resource ∈ list.items)
    (hjson : resource.toJson = .ok json) :
    ∃ path ∈ paths, ∃ file fragment,
      readResource setting path = .ok resource ∧
      FragmentFile.parseName path.name = .ok file ∧
      FragmentFile.read setting.disk path (some file.extension) = .ok fragment ∧
      ∀ key, key ∉ Fragment.identityKeys →
        ((json.field? key).map .ok =
          (Value.field? fragment.entries key).map Resource.dump ↔
          ¬(key = "api_version" ∧ (Value.field? fragment.entries key).isSome ∧
              fragment.LacksVersion file setting.versioning setting.registry) ∧
            ¬∃ value label, Value.field? fragment.entries key = some value ∧
              fragment.unnamedLabel? = some label ∧ value.Shows label) := by
  obtain ⟨path, hpath, hresource⟩ :=
    exists_readResource_of_mem_build hbuild hmem
  obtain ⟨file, fragment, hfile, hfragment, hdone, hmade⟩ :=
    readResource_eq_ok hresource
  obtain ⟨outlines, hcoherent⟩ := FragmentFile.coherent_of_read_eq hfragment
  refine ⟨path, hpath, file, fragment, hresource, hfile, hfragment,
    fun key hkey => ?_⟩
  exact field?_readResource hcoherent hdone
    (read_eq_ok_of_ofFragment_eq hmade) hjson hkey

end

def aliasing : String :=
  "metadata: &m\n  labels: \x7bapp: web\x7d\n" ++
    "spec:\n  template:\n    metadata: *m\n"

def aliasingPath : Path := ⟨"", ["web-deployment.yaml"]⟩

def aliasingSetting : Setting where
  registry := Registry.empty.addAll [⟨"Deployment", ["deployment"]⟩]
  versioning := Versioning.standard
  defaultName := "app"
  disk :=
    ⟨.directory [("web-deployment.yaml", .file (Utf8.encode aliasing.toList))],
      []⟩

def namesTemplate (spec : Json) : Bool :=
  (((spec.field? "template").bind (Json.field? "metadata")).bind
    (Json.field? "name")).isSome

private theorem build_aliasing :
    ∃ list resource json spec, build aliasingSetting [aliasingPath] = .ok list ∧
      resource ∈ list.items ∧ resource.toJson = .ok json ∧
        json.field? "spec" = some spec ∧
      namesTemplate spec = true := by
  have hbuilt : ((build aliasingSetting [aliasingPath]).toOption.bind
      fun list =>
        list.items.head?.bind fun resource =>
          resource.toJson.toOption.bind fun json =>
            (json.field? "spec").map namesTemplate) = some true := by
    decide +kernel
  obtain ⟨list, hlist, hnames⟩ := Option.bind_eq_some_iff.mp hbuilt
  obtain ⟨resource, hresource, hnames⟩ := Option.bind_eq_some_iff.mp hnames
  obtain ⟨json, hjson, hnames⟩ := Option.bind_eq_some_iff.mp hnames
  obtain ⟨spec, hspec, hnames⟩ := Option.map_eq_some_iff.mp hnames
  exact ⟨list, resource, json, spec, toOption_eq_some_iff.mp hlist,
    List.mem_of_head? hresource, toOption_eq_some_iff.mp hjson, hspec, hnames⟩

theorem field?_build_aliasing :
    ∃ list resource json, build aliasingSetting [aliasingPath] = .ok list ∧
      resource ∈ list.items ∧ resource.toJson = .ok json ∧
      ∃ path ∈ [aliasingPath], ∃ file fragment,
        FragmentFile.parseName path.name = .ok file ∧
        FragmentFile.read aliasingSetting.disk path (some file.extension) =
          .ok fragment ∧
        ((json.field? "spec").map .ok =
            (Value.field? fragment.entries "spec").map Resource.dump ↔
          ¬∃ value label, Value.field? fragment.entries "spec" = some value ∧
            fragment.unnamedLabel? = some label ∧ value.Shows label) := by
  obtain ⟨list, resource, json, -, hbuild, hmem, hjson, -⟩ := build_aliasing
  obtain ⟨path, hpath, file, fragment, -, hfile, hread, hfield⟩ :=
    field?_build hbuild hmem hjson
  refine ⟨list, resource, json, hbuild, hmem, hjson, path, hpath, file,
    fragment, hfile, hread, ?_⟩
  rw [hfield "spec" (by decide)]
  simp

/-- The template of the built resource is not the one that the file holds. -/
theorem build_aliasing_ne_read :
    ∃ list resource json fragment,
      build aliasingSetting [aliasingPath] = .ok list ∧
      resource ∈ list.items ∧ resource.toJson = .ok json ∧
      FragmentFile.read aliasingSetting.disk aliasingPath (some "yaml") =
        .ok fragment ∧
      (json.field? "spec").map .ok ≠
        (Value.field? fragment.entries "spec").map Resource.dump := by
  obtain ⟨list, resource, json, spec, hbuild, hmem, hjson, hspec, hnamed⟩ :=
    build_aliasing
  have hread :
      ((FragmentFile.read aliasingSetting.disk aliasingPath
        (some "yaml")).toOption.bind fun fragment =>
        (Value.field? fragment.entries "spec").bind fun value =>
          (dump value).toOption.map namesTemplate) = some false := by
    decide +kernel
  obtain ⟨fragment, hfragment, hread⟩ := Option.bind_eq_some_iff.mp hread
  obtain ⟨value, hvalue, hread⟩ := Option.bind_eq_some_iff.mp hread
  obtain ⟨dumped, hdumped, hunnamed⟩ := Option.map_eq_some_iff.mp hread
  refine ⟨list, resource, json, fragment, hbuild, hmem, hjson,
    toOption_eq_some_iff.mp hfragment, ?_⟩
  rw [hspec, hvalue, Option.map_some, Option.map_some,
    toOption_eq_some_iff.mp hdumped]
  intro heq
  cases heq
  rw [hunnamed] at hnamed
  cases hnamed

end Fragments.ResourceList
