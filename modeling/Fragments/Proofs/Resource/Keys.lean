import Fragments.Proofs.Json.RoundTrip
import Fragments.Proofs.Resource.Reading

namespace Fragments

namespace Json

theorem distinctKeys_uniqueEntries {entries : List (String × Json)}
    (hvalues : ∀ entry ∈ entries, entry.2.DistinctKeys) :
    (object (uniqueEntries entries)).DistinctKeys :=
  distinctKeys_object_iff.mpr ⟨Entries.nodup_ofPairs entries,
    fun entry hmem => hvalues entry (mem_of_mem_uniqueEntries hmem)⟩

end Json

namespace Resource

theorem distinctKeys_dumpScalar {value : Scalar} {json : Json}
    (hdump : dumpScalar value = .ok json) : json.DistinctKeys := by
  cases value with
  | bytes content =>
      obtain ⟨text, -, rfl⟩ := map_eq_ok_iff.mp hdump
      trivial
  | float value =>
      cases hdump
      split <;> trivial
  | null | bool _ | int _ | text _ | date _ | moment _ =>
      cases hdump
      trivial

mutual

theorem distinctKeys_dumpIn : ∀ {value : Value} {levels : Nat} {json : Json},
    dumpIn levels value = .ok json → json.DistinctKeys
  | .scalar _, _, _, hdump =>
      distinctKeys_dumpScalar (dumpIn_scalar_eq_ok_iff.mp hdump).2
  | .list _ items, levels, json, hdump => by
      obtain ⟨-, dumped, hitems, rfl⟩ := dumpIn_list_eq_ok_iff.mp hdump
      exact Json.distinctKeys_array_iff.mpr (distinctKeys_dumpItems hitems)
  | .mapping _ entries, levels, json, hdump => by
      obtain ⟨-, dumped, hentries, rfl⟩ := dumpIn_mapping_eq_ok_iff.mp hdump
      exact Json.distinctKeys_uniqueEntries (distinctKeys_dumpEntries hentries)
  | .set _ elements, levels, json, hdump => by
      obtain ⟨-, dumped, helements, rfl⟩ := dumpIn_set_eq_ok_iff.mp hdump
      refine Json.distinctKeys_array_iff.mpr fun item hmem => ?_
      obtain ⟨element, -, helement⟩ := exists_of_mem_mapM helements hmem
      exact distinctKeys_dumpScalar (dumpLeaf_eq_ok_iff.mp helement).2
  | .pair first second, levels, json, hdump => by
      obtain ⟨-, a, b, hfirst, hsecond, rfl⟩ := dumpIn_pair_eq_ok_iff.mp hdump
      exact ⟨distinctKeys_dumpIn hfirst, distinctKeys_dumpIn hsecond, trivial⟩
  | .back _, _, _, hdump => by cases hdump

theorem distinctKeys_dumpItems :
    ∀ {items : List Value} {levels : Nat} {dumped : List Json},
      dumpItems levels items = .ok dumped → ∀ item ∈ dumped, item.DistinctKeys
  | [], _, _, hdump => by
      cases hdump
      exact fun _ hmem => absurd hmem List.not_mem_nil
  | item :: rest, levels, dumped, hdump => by
      obtain ⟨first, more, hfirst, hmore, rfl⟩ :=
        dumpItems_cons_eq_ok_iff.mp hdump
      exact List.forall_mem_cons.mpr
        ⟨distinctKeys_dumpIn hfirst, distinctKeys_dumpItems hmore⟩

theorem distinctKeys_dumpEntries :
    ∀ {entries : List (Scalar × Value)} {levels : Nat}
    {dumped : List (String × Json)}, dumpEntries levels entries = .ok dumped →
      ∀ entry ∈ dumped, entry.2.DistinctKeys
  | [], _, _, hdump => by
      cases hdump
      exact fun _ hmem => absurd hmem List.not_mem_nil
  | (key, value) :: rest, levels, dumped, hdump => by
      obtain ⟨text, json, more, -, hvalue, hmore, rfl⟩ :=
        dumpEntries_cons_eq_ok_iff.mp hdump
      exact List.forall_mem_cons.mpr
        ⟨distinctKeys_dumpIn hvalue, distinctKeys_dumpEntries hmore⟩

end

theorem map_fst_dumpExtras {extras : List (String × Value)}
    {dumped : List (String × Json)} (hdump : dumpExtras extras = .ok dumped) :
    dumped.map Prod.fst = extras.map Prod.fst := by
  induction extras generalizing dumped with
  | nil =>
      cases hdump
      rfl
  | cons extra rest ih =>
      obtain ⟨json, -, hrest⟩ := bind_eq_ok_iff.mp hdump
      obtain ⟨more, hmore, heq⟩ := bind_eq_ok_iff.mp hrest
      cases heq
      rw [List.map_cons, List.map_cons, ih hmore]

theorem distinctKeys_dumpExtras {extras : List (String × Value)}
    {dumped : List (String × Json)} (hdump : dumpExtras extras = .ok dumped) :
    ∀ entry ∈ dumped, entry.2.DistinctKeys := by
  rw [dumpExtras_eq] at hdump
  exact distinctKeys_dumpEntries hdump

end Resource

/-- Whether the entries are those of a dictionary, no key being the same as an
earlier one. -/
def Value.IsDictionary (entries : List (Scalar × Value)) : Prop :=
  entries.Pairwise fun earlier later => earlier.1.same later.1 = false

instance (entries : List (Scalar × Value)) :
    Decidable (Value.IsDictionary entries) :=
  inferInstanceAs (Decidable (List.Pairwise _ _))

structure Metadata.Keyed (metadata : Metadata) : Prop where
  labels : ∀ pairs, metadata.labels = some pairs → (pairs.map Prod.fst).Nodup
  annotations : ∀ pairs, metadata.annotations = some pairs →
    (pairs.map Prod.fst).Nodup
  extras : (Resource.metadataFields ++ metadata.extras.map Prod.fst).Nodup

structure Resource.Keyed (resource : Resource) : Prop where
  metadata : resource.metadata.Keyed
  extras :
    (["apiVersion", "kind", "metadata"] ++ resource.extras.map Prod.fst).Nodup

namespace Resource

section

variable {place taken : List String} {entries : List (Scalar × Value)}
  {extras : List (String × Value)}

theorem not_mem_of_readExtras_eq
    (hextras : readExtras place taken entries = .ok extras) {key : String}
    (htaken : key ∈ taken) : key ∉ extras.map Prod.fst := by
  intro hmem
  obtain ⟨extra, hextra, rfl⟩ := List.mem_map.mp hmem
  have hfilter : (Scalar.text extra.1, extra.2) ∈
      entries.filter fun entry => isExtra taken entry.1 := by
    rw [filter_eq_of_readExtras_eq hextras]
    exact List.mem_map_of_mem hextra
  have hfree := (List.mem_filter.mp hfilter).2
  rw [isExtra_text, List.contains_iff_mem.mpr htaken] at hfree
  cases hfree

theorem nodup_of_readExtras_eq (hdictionary : Value.IsDictionary entries)
    (hextras : readExtras place taken entries = .ok extras) :
    (extras.map Prod.fst).Nodup := by
  have hpairwise := hdictionary.filter fun entry => isExtra taken entry.1
  rw [filter_eq_of_readExtras_eq hextras, List.pairwise_map] at hpairwise
  refine List.pairwise_map.mpr (hpairwise.imp ?_)
  rintro earlier later hsame heq
  rw [heq] at hsame
  exact absurd hsame (by simp [Scalar.same, Scalar.integer?])

theorem nodup_fields_append (hfields : taken.Nodup)
    (hdistinct : (extras.map Prod.fst).Nodup)
    (hfree : ∀ key ∈ taken, key ∉ extras.map Prod.fst) :
    (taken ++ extras.map Prod.fst).Nodup :=
  List.nodup_append.mpr ⟨hfields, hdistinct, fun _ hkey _ hextra heq =>
    hfree _ hkey (heq ▸ hextra)⟩

end

theorem nodup_of_readTexts_eq {place : List String} {value : Option Value}
    {texts : Option (List (String × String))}
    (hread : readTexts place value = .ok texts) :
    ∀ pairs, texts = some pairs → (pairs.map Prod.fst).Nodup := by
  rintro pairs rfl
  unfold readTexts at hread
  split at hread
  · cases hread
  · cases hread
  · obtain ⟨read, -, heq⟩ := map_eq_ok_iff.mp hread
    cases heq
    exact Entries.nodup_ofPairs read
  · cases hread

theorem keyed_readMetadata {entries : List (Scalar × Value)}
    {metadata : Metadata} (hdictionary : Value.IsDictionary entries)
    (hread : readMetadata entries = .ok metadata) :
    metadata.Keyed := by
  obtain ⟨hlabels, hannotations, hextras⟩ := readMetadata_eq_ok hread
  exact ⟨nodup_of_readTexts_eq hlabels, nodup_of_readTexts_eq hannotations,
    nodup_fields_append (by decide) (nodup_of_readExtras_eq hdictionary hextras)
      fun _ => not_mem_of_readExtras_eq hextras⟩

theorem keyed_readMetadataOf {fragment : Fragment} {metadata : Metadata}
    (hentries : Value.IsDictionary fragment.entries)
    (hmetadata : Value.IsDictionary (Enrichment.metadataEntries fragment))
    (hread : readMetadataOf fragment = .ok metadata) : metadata.Keyed := by
  unfold readMetadataOf at hread
  split at hread
  · cases hread
    exact ⟨fun _ h => (nomatch h), fun _ h => (nomatch h), by decide⟩
  · next label entries hfield =>
      have heq : Enrichment.metadataEntries fragment = entries := by
        simp only [Enrichment.metadataEntries, Fragment.present?,
          Value.present?, hfield]
      exact keyed_readMetadata (heq ▸ hmetadata) hread
  · exact keyed_readMetadata hentries hread
  · cases hread

/-- The short form of the version stands in only where the full one is missing,
so neither is among the extras. -/
theorem apiVersion_not_mem_extras {fragment : Fragment}
    {extras : List (String × Value)}
    (hextras : readExtras []
      [apiVersionKey fragment.entries, "kind", "metadata"] fragment.entries =
        .ok extras) : "apiVersion" ∉ extras.map Prod.fst := by
  unfold apiVersionKey at hextras
  split at hextras
  · next hshort =>
      intro hmem
      obtain ⟨extra, hextra, hkey⟩ := List.mem_map.mp hmem
      have hfilter := List.mem_map_of_mem (f := fun extra : String × Value =>
        (Scalar.text extra.1, extra.2)) hextra
      rw [← filter_eq_of_readExtras_eq hextras, hkey] at hfilter
      rw [Bool.and_eq_true, Option.isNone_iff_eq_none] at hshort
      exact Entries.get?_eq_none_iff.mp hshort.1
        (List.mem_map_of_mem (List.mem_filter.mp hfilter).1)
  · exact not_mem_of_readExtras_eq hextras List.mem_cons_self

theorem keyed_read {fragment : Fragment} {resource : Resource}
    (hentries : Value.IsDictionary fragment.entries)
    (hmetadata : Value.IsDictionary (Enrichment.metadataEntries fragment))
    (hread : read fragment = .ok resource) : resource.Keyed := by
  obtain ⟨-, -, hmetadataRead, hextras⟩ := read_eq_ok hread
  refine ⟨keyed_readMetadataOf hentries hmetadata hmetadataRead,
    nodup_fields_append (by decide)
      (nodup_of_readExtras_eq hentries hextras) ?_⟩
  simp only [List.forall_mem_cons, List.not_mem_nil, false_imp_iff,
    implies_true, and_true]
  exact ⟨apiVersion_not_mem_extras hextras,
    not_mem_of_readExtras_eq hextras (by simp),
    not_mem_of_readExtras_eq hextras (by simp)⟩

/-- What a fragment was turned into, where the fragment and its metadata are
dictionaries. -/
def Converted (resource : Resource) : Prop :=
  ∃ fragment fileName, Value.IsDictionary fragment.entries ∧
    Value.IsDictionary (Enrichment.metadataEntries fragment) ∧
    ofFragment fragment fileName = .ok resource

theorem Converted.keyed {resource : Resource}
    (hconverted : resource.Converted) :
    resource.Keyed := by
  obtain ⟨fragment, fileName, hentries, hmetadata, hresource⟩ := hconverted
  exact keyed_read hentries hmetadata (read_eq_ok_of_ofFragment_eq hresource)

theorem map_fst_textField_sublist (key : String) (value : Option String) :
    ((textField key value).map Prod.fst).Sublist [key] := by
  cases value with
  | none => exact List.nil_sublist _
  | some text => exact List.Sublist.refl _

theorem map_fst_textsField_sublist (key : String)
    (value : Option (List (String × String))) :
    ((textsField key value).map Prod.fst).Sublist [key] := by
  cases value with
  | none => exact List.nil_sublist _
  | some pairs => exact List.Sublist.refl _

theorem distinctKeys_textField (key : String) (value : Option String) :
    ∀ entry ∈ textField key value, entry.2.DistinctKeys := by
  intro entry hmem
  obtain ⟨text, -, rfl⟩ := List.mem_map.mp hmem
  trivial

theorem distinctKeys_textsField (key : String)
    {value : Option (List (String × String))}
    (hnodup : ∀ pairs, value = some pairs → (pairs.map Prod.fst).Nodup) :
    ∀ entry ∈ textsField key value, entry.2.DistinctKeys := by
  intro entry hmem
  obtain ⟨pairs, hpairs, rfl⟩ := List.mem_map.mp hmem
  refine Json.distinctKeys_object_iff.mpr ⟨?_, ?_⟩
  · rw [List.map_map]
    exact hnodup pairs (Option.mem_toList.mp hpairs)
  · intro entry hmem
    obtain ⟨pair, -, rfl⟩ := List.mem_map.mp hmem
    trivial

theorem distinctKeys_dumpMetadata {metadata : Metadata} {json : Json}
    (hkeyed : metadata.Keyed) (hdump : dumpMetadata metadata = .ok json) :
    json.DistinctKeys := by
  obtain ⟨extras, hextras, rfl⟩ := dumpMetadata_eq_ok hdump
  refine Json.distinctKeys_object_iff.mpr ⟨?_, ?_⟩
  · simp only [List.map_append, map_fst_dumpExtras hextras]
    refine hkeyed.extras.sublist (List.Sublist.append_right ?_ _)
    exact (((map_fst_textField_sublist "name" _).append
      (map_fst_textField_sublist "namespace" _)).append
      (map_fst_textsField_sublist "labels" _)).append
      (map_fst_textsField_sublist "annotations" _)
  · simp only [List.forall_mem_append]
    exact ⟨⟨⟨⟨distinctKeys_textField _ _, distinctKeys_textField _ _⟩,
      distinctKeys_textsField _ hkeyed.labels⟩,
      distinctKeys_textsField _ hkeyed.annotations⟩,
      distinctKeys_dumpExtras hextras⟩

theorem distinctKeys_toJson {resource : Resource} {json : Json}
    (hkeyed : resource.Keyed) (hdump : toJson resource = .ok json) :
    json.DistinctKeys := by
  obtain ⟨metadata, extras, hmetadata, hextras, rfl⟩ := toJson_eq_ok hdump
  refine Json.distinctKeys_object_iff.mpr ⟨?_, ?_⟩
  · simp only [List.map_append, List.map_cons, map_fst_dumpExtras hextras]
    exact hkeyed.extras.sublist
      ((map_fst_textField_sublist "apiVersion" _).append (List.Sublist.refl _))
  · simp only [List.forall_mem_append, List.forall_mem_cons]
    exact ⟨distinctKeys_textField _ _, trivial,
      distinctKeys_dumpMetadata hkeyed.metadata hmetadata,
      distinctKeys_dumpExtras hextras⟩

end Resource

end Fragments
