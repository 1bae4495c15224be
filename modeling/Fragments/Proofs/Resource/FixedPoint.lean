import Fragments.Proofs.Json.Values
import Fragments.Proofs.Resource.Keys

namespace Fragments

namespace Resource

/-- Whether JSON data is its own dump, where `levels` values may lie in each
other. -/
def Dumped (levels : Nat) (json : Json) : Prop :=
  dumpIn levels json.toValue = .ok json

theorem dumpItems_toValues {levels : Nat} {items : List Json}
    (hitems : ∀ item ∈ items, Dumped levels item) :
    dumpItems levels (Json.toValues items) = .ok items := by
  induction items with
  | nil => rfl
  | cons item rest ih =>
      obtain ⟨hitem, hrest⟩ := List.forall_mem_cons.mp hitems
      rw [Json.toValues]
      exact dumpItems_cons_eq_ok_iff.mpr ⟨item, rest, hitem, ih hrest, rfl⟩

theorem dumpEntries_toFields {levels : Nat} {entries : List (String × Json)}
    (hentries : ∀ entry ∈ entries, Dumped levels entry.2) :
    dumpEntries levels (Json.toFields entries) = .ok entries := by
  induction entries with
  | nil => rfl
  | cons entry rest ih =>
      obtain ⟨hentry, hrest⟩ := List.forall_mem_cons.mp hentries
      rw [Json.toFields]
      exact dumpEntries_cons_eq_ok_iff.mpr
        ⟨entry.1, entry.2, rest, rfl, hentry, ih hrest, rfl⟩

theorem Dumped.array {levels : Nat} {items : List Json} (hlevels : levels ≠ 0)
    (hitems : ∀ item ∈ items, Dumped (levels - 1) item) :
    Dumped levels (.array items) :=
  dumpIn_list_eq_ok_iff.mpr ⟨hlevels, items, dumpItems_toValues hitems, rfl⟩

theorem Dumped.object {levels : Nat} {entries : List (String × Json)}
    (hlevels : levels ≠ 0)
    (hentries : ∀ entry ∈ entries, Dumped (levels - 1) entry.2) :
    Dumped levels (.object (Json.uniqueEntries entries)) := by
  refine dumpIn_mapping_eq_ok_iff.mpr ⟨hlevels, Json.uniqueEntries entries,
    dumpEntries_toFields fun entry hmem =>
      hentries entry (Json.mem_of_mem_uniqueEntries hmem), ?_⟩
  rw [Json.uniqueEntries, Json.uniqueEntries,
    Entries.ofPairs_of_nodup (Entries.nodup_ofPairs entries)]

theorem dumped_dumpScalar {levels : Nat} {value : Scalar} {json : Json}
    (hlevels : levels ≠ 0) (hdump : dumpScalar value = .ok json) :
    Dumped levels json := by
  have hleaf {leaf : Scalar} {json : Json}
      (hleaf : dumpScalar leaf = .ok json) :
      dumpIn levels (.scalar leaf) = .ok json :=
    dumpIn_scalar_eq_ok_iff.mpr ⟨hlevels, hleaf⟩
  cases value with
  | bytes content =>
      obtain ⟨text, -, rfl⟩ := map_eq_ok_iff.mp hdump
      exact hleaf rfl
  | float value =>
      cases hdump
      cases hfinite : value.isFinite with
      | true => exact hleaf (by rw [dumpScalar, hfinite, if_pos rfl])
      | false => exact hleaf rfl
  | null | bool _ | int _ | text _ | date _ | moment _ =>
      cases hdump
      exact hleaf rfl

mutual

theorem dumped_dumpIn : ∀ {value : Value} {levels : Nat} {json : Json},
    dumpIn levels value = .ok json → Dumped levels json
  | .scalar _, levels, _, hdump => by
      obtain ⟨hlevels, hscalar⟩ := dumpIn_scalar_eq_ok_iff.mp hdump
      exact dumped_dumpScalar hlevels hscalar
  | .list _ items, levels, json, hdump => by
      obtain ⟨hlevels, dumped, hitems, rfl⟩ := dumpIn_list_eq_ok_iff.mp hdump
      exact Dumped.array hlevels (dumped_dumpItems hitems)
  | .mapping _ entries, levels, json, hdump => by
      obtain ⟨hlevels, dumped, hentries, rfl⟩ :=
        dumpIn_mapping_eq_ok_iff.mp hdump
      exact Dumped.object hlevels (dumped_dumpEntries hentries)
  | .set _ elements, levels, json, hdump => by
      obtain ⟨hlevels, dumped, helements, rfl⟩ := dumpIn_set_eq_ok_iff.mp hdump
      refine Dumped.array hlevels fun item hmem => ?_
      obtain ⟨element, -, helement⟩ := exists_of_mem_mapM helements hmem
      obtain ⟨hinner, hscalar⟩ := dumpLeaf_eq_ok_iff.mp helement
      exact dumped_dumpScalar hinner hscalar
  | .pair first second, levels, json, hdump => by
      obtain ⟨hlevels, a, b, hfirst, hsecond, rfl⟩ :=
        dumpIn_pair_eq_ok_iff.mp hdump
      refine Dumped.array hlevels ?_
      simp only [List.forall_mem_cons, List.not_mem_nil, false_imp_iff,
        implies_true, and_true]
      exact ⟨dumped_dumpIn hfirst, dumped_dumpIn hsecond⟩
  | .back _, _, _, hdump => by cases hdump

theorem dumped_dumpItems :
    ∀ {items : List Value} {levels : Nat} {dumped : List Json},
      dumpItems levels items = .ok dumped → ∀ item ∈ dumped, Dumped levels item
  | [], _, _, hdump => by
      cases hdump
      exact fun _ hmem => absurd hmem List.not_mem_nil
  | item :: rest, levels, dumped, hdump => by
      obtain ⟨first, more, hfirst, hmore, rfl⟩ :=
        dumpItems_cons_eq_ok_iff.mp hdump
      exact List.forall_mem_cons.mpr
        ⟨dumped_dumpIn hfirst, dumped_dumpItems hmore⟩

theorem dumped_dumpEntries : ∀ {entries : List (Scalar × Value)} {levels : Nat}
    {dumped : List (String × Json)}, dumpEntries levels entries = .ok dumped →
      ∀ entry ∈ dumped, Dumped levels entry.2
  | [], _, _, hdump => by
      cases hdump
      exact fun _ hmem => absurd hmem List.not_mem_nil
  | (key, value) :: rest, levels, dumped, hdump => by
      obtain ⟨text, json, more, -, hvalue, hmore, rfl⟩ :=
        dumpEntries_cons_eq_ok_iff.mp hdump
      exact List.forall_mem_cons.mpr
        ⟨dumped_dumpIn hvalue, dumped_dumpEntries hmore⟩

end

/-- Entries of a dump as the extras of a resource. -/
def carried (entries : List (String × Json)) : List (String × Value) :=
  entries.map fun entry => (entry.1, entry.2.toValue)

theorem dumpExtras_carried {extras : List (String × Value)}
    {dumped : List (String × Json)} (hdump : dumpExtras extras = .ok dumped) :
    dumpExtras (carried dumped) = .ok dumped := by
  rw [dumpExtras_eq] at hdump
  rw [dumpExtras_eq, carried, List.map_map,
    ← dumpEntries_toFields (dumped_dumpEntries hdump), Json.toFields_eq_map]
  rfl

theorem both_ok (a : α) (b : β) :
    both (.ok a : Checked α) (.ok b) = .ok (a, b) := rfl

theorem readOptional_text (numbers : Bool) (place : List String)
    (value : Option String) :
    readOptional numbers place
      (value.map fun text => (Json.text text).toValue) = .ok value := by
  cases value <;> rfl

theorem readTexts_object (place : List String)
    {value : Option (List (String × String))}
    (hnodup : ∀ pairs, value = some pairs → (pairs.map Prod.fst).Nodup) :
    readTexts place (value.map fun pairs =>
      (Json.object (pairs.map fun pair => (pair.1, .text pair.2))).toValue) =
        .ok value := by
  cases value with
  | none => rfl
  | some pairs =>
      have hall : ∀ pairs : List (String × String),
          readAll (readPair place)
            (Json.toFields (pairs.map fun pair => (pair.1, Json.text pair.2))) =
              .ok pairs := by
        intro pairs
        induction pairs with
        | nil => rfl
        | cons pair rest ih =>
            rw [List.map_cons, Json.toFields, readAll, ih]
            rfl
      rw [Option.map_some, Json.toValue, readTexts, hall]
      simp only [Except.map, Entries.ofPairs_of_nodup (hnodup pairs rfl)]

theorem readExtras_toFields (place taken : List String)
    (fields : List (String × Json)) {extras : List (String × Json)}
    (hfields : ∀ entry ∈ fields, entry.1 ∈ taken)
    (hextras : ∀ entry ∈ extras, entry.1 ∉ taken) :
    readExtras place taken (Json.toFields (fields ++ extras)) =
      .ok (carried extras) := by
  have hkept : ((fields ++ extras).map fun entry =>
    (Scalar.text entry.1, entry.2.toValue)).filter
      (fun entry => isExtra taken entry.1) =
        extras.map fun entry => (.text entry.1, entry.2.toValue) := by
    rw [List.map_append, List.filter_append, List.filter_eq_nil_iff.mpr,
      List.nil_append, List.filter_eq_self]
    · intro entry hmem
      obtain ⟨own, hown, rfl⟩ := List.mem_map.mp hmem
      simpa [isExtra_text] using hextras own hown
    · intro entry hmem
      obtain ⟨own, hown, rfl⟩ := List.mem_map.mp hmem
      simpa [isExtra_text] using hfields own hown
  have hall : ∀ (read : Scalar × Value → Checked (String × Value)),
      (∀ key value, read (.text key, value) = .ok (key, value)) →
      readAll read (extras.map fun entry : String × Json =>
        (.text entry.1, entry.2.toValue)) =
        .ok (carried extras) := by
    intro read hread
    clear hextras hkept
    induction extras with
    | nil => rfl
    | cons extra rest ih =>
        rw [List.map_cons, readAll, ih, hread]
        rfl
  rw [readExtras, Json.toFields_eq_map]
  change readAll _
    (List.filter (fun entry : Scalar × Value => isExtra taken entry.1) _) = _
  rw [hkept]
  exact hall _ fun _ _ => rfl

theorem get?_textField (field key : String) (value : Option String) :
    Entries.get? (textField field value) key =
      if field = key then value.map .text else none := by
  cases value with
  | none => split <;> rfl
  | some text => simp [textField, Entries.get?]

theorem get?_textsField (field key : String)
    (value : Option (List (String × String))) :
    Entries.get? (textsField field value) key =
      if field = key then
        value.map fun pairs =>
          .object (pairs.map fun pair => (pair.1, .text pair.2))
      else none := by
  cases value with
  | none => split <;> rfl
  | some pairs => simp [textsField, Entries.get?]

end Resource

structure Metadata.Apart (metadata : Metadata) : Prop where
  labels : ∀ pairs, metadata.labels = some pairs → (pairs.map Prod.fst).Nodup
  annotations : ∀ pairs, metadata.annotations = some pairs →
    (pairs.map Prod.fst).Nodup
  extras : ∀ entry ∈ metadata.extras, entry.1 ∉ Resource.metadataFields

structure Resource.Apart (resource : Resource) : Prop where
  metadata : resource.metadata.Apart
  extras : ∀ entry ∈ resource.extras,
    entry.1 ∉ ["apiVersion", "kind", "metadata"]

namespace Resource

variable {fragment : Fragment} {resource : Resource}
  {entries : List (String × Json)}

theorem apart_readMetadata {entries : List (Scalar × Value)}
    {metadata : Metadata} (hread : readMetadata entries = .ok metadata) :
    metadata.Apart := by
  obtain ⟨hlabels, hannotations, hextras⟩ := readMetadata_eq_ok hread
  exact ⟨nodup_of_readTexts_eq hlabels, nodup_of_readTexts_eq hannotations,
    fun entry hmem htaken =>
      not_mem_of_readExtras_eq hextras htaken (List.mem_map_of_mem hmem)⟩

theorem apart_read (hread : read fragment = .ok resource) : resource.Apart := by
  obtain ⟨-, -, hmetadata, hextras⟩ := read_eq_ok hread
  constructor
  · unfold readMetadataOf at hmetadata
    split at hmetadata
    · rw [← Except.ok.inj hmetadata]
      exact ⟨fun _ h => (nomatch h), fun _ h => (nomatch h), fun _ h =>
        (nomatch h)⟩
    · exact apart_readMetadata hmetadata
    · exact apart_readMetadata hmetadata
    · cases hmetadata
  · intro entry hmem hfield
    have hkey := List.mem_map_of_mem (f := Prod.fst) hmem
    simp only [List.mem_cons, List.not_mem_nil, or_false] at hfield
    rcases hfield with heq | heq | heq
    · exact apiVersion_not_mem_extras hextras (heq ▸ hkey)
    · exact not_mem_of_readExtras_eq hextras (by simp) (heq ▸ hkey)
    · exact not_mem_of_readExtras_eq hextras (by simp) (heq ▸ hkey)

/-- The entries of a metadata dump that come from typed fields. -/
def typedEntries (metadata : Metadata) : List (String × Json) :=
  textField "name" metadata.name ++ textField "namespace" metadata.namespace_ ++
    textsField "labels" metadata.labels ++
    textsField "annotations" metadata.annotations

theorem typedEntries_keys (metadata : Metadata) :
    ∀ entry ∈ typedEntries metadata, entry.1 ∈ metadataFields := by
  simp only [typedEntries, List.forall_mem_append, textField, textsField,
    List.forall_mem_map]
  simp [metadataFields]

theorem free_of_dumpExtras {taken : List String}
    {extras : List (String × Value)} {dumped : List (String × Json)}
    (hdump : dumpExtras extras = .ok dumped)
    (hfree : ∀ extra ∈ extras, extra.1 ∉ taken) :
    ∀ entry ∈ dumped, entry.1 ∉ taken := by
  intro entry hmem
  have hkey := List.mem_map_of_mem (f := Prod.fst) hmem
  rw [map_fst_dumpExtras hdump] at hkey
  obtain ⟨extra, hextra, heq⟩ := List.mem_map.mp hkey
  exact heq ▸ hfree extra hextra

theorem get?_eq_none_of_free {taken : List String}
    {dumped : List (String × Json)} (hfree : ∀ entry ∈ dumped, entry.1 ∉ taken)
    {key : String} (htaken : key ∈ taken) :
    Entries.get? dumped key = none := by
  rw [Entries.get?_eq_none_iff]
  intro hmem
  obtain ⟨entry, hentry, rfl⟩ := List.mem_map.mp hmem
  exact hfree entry hentry htaken

theorem field?_typedEntries {metadata : Metadata}
    {dumped : List (String × Json)} (hapart : metadata.Apart)
    (hextras : dumpExtras metadata.extras = .ok dumped) :
    let field := Value.field? (Json.toFields (typedEntries metadata ++ dumped))
    field "name" = metadata.name.map (fun text => (Json.text text).toValue) ∧
      field "namespace" =
        metadata.namespace_.map (fun text => (Json.text text).toValue) ∧
      field "labels" = metadata.labels.map (fun pairs =>
        (Json.object (pairs.map fun pair => (pair.1, .text pair.2))).toValue) ∧
      field "annotations" = metadata.annotations.map (fun pairs =>
        (Json.object (pairs.map fun pair =>
          (pair.1, .text pair.2))).toValue) := by
  have hnone : ∀ key ∈ metadataFields, Entries.get? dumped key = none :=
    fun key htaken =>
      get?_eq_none_of_free (free_of_dumpExtras hextras hapart.extras) htaken
  simp [metadataFields] at hnone
  simp [Json.field?_toFields, Entries.get?_append, typedEntries, get?_textField,
    get?_textsField, hnone, Function.comp_def]

theorem readMetadata_dumped {metadata : Metadata}
    {dumped : List (String × Json)} (hapart : metadata.Apart)
    (hextras : dumpExtras metadata.extras = .ok dumped) :
    readMetadata (Json.toFields (typedEntries metadata ++ dumped)) =
      .ok { metadata with extras := carried dumped } := by
  have hfree := free_of_dumpExtras hextras hapart.extras
  obtain ⟨hname, hnamespace, hlabels, hannotations⟩ :=
    field?_typedEntries hapart hextras
  unfold readMetadata
  simp only [readExtras_toFields _ _ _ (typedEntries_keys metadata) hfree,
    hname, hnamespace, hlabels, hannotations, readOptional_text,
    readTexts_object _ hapart.labels,
    readTexts_object _ hapart.annotations, both_ok]
  rfl

theorem toJson_eq_ok_of_version (hapart : resource.Apart)
    (hdump : toJson resource = .ok (.object entries))
    (hversion : (Entries.get? entries "apiVersion").isSome) :
    ∃ version metadata extras, resource.apiVersion = some version ∧
      dumpExtras resource.metadata.extras = .ok metadata ∧
      dumpExtras resource.extras = .ok extras ∧
      (∀ entry ∈ extras, entry.1 ∉ ["apiVersion", "kind", "metadata"]) ∧
      entries = [("apiVersion", .text version), ("kind", .text resource.kind),
        ("metadata", .object (typedEntries resource.metadata ++ metadata))] ++
        extras := by
  obtain ⟨metadata, extras, hmetadata, hextras, heq⟩ := toJson_eq_ok hdump
  obtain ⟨inner, hinner, rfl⟩ := dumpMetadata_eq_ok hmetadata
  cases heq
  have hfree := free_of_dumpExtras hextras hapart.extras
  cases hshown : resource.apiVersion with
  | some version =>
      exact ⟨version, inner, extras, rfl, hinner, hextras, hfree, rfl⟩
  | none =>
      -- Without a version of its own, the dump could only show one among the
      -- extras.
      rw [hshown] at hversion
      have hnone : Entries.get? extras "apiVersion" = none :=
        get?_eq_none_of_free hfree List.mem_cons_self
      simp [textField, Entries.get?, hnone] at hversion

theorem read_dumped (hapart : resource.Apart)
    (hdump : toJson resource = .ok (.object entries))
    (hversion : (Entries.get? entries "apiVersion").isSome) :
    ∃ again, read ⟨none, Json.toFields entries⟩ = .ok again ∧
      toJson again = .ok (.object entries) := by
  obtain ⟨version, metadata, extras, hshown, hmetadata, hextras, hfree, rfl⟩ :=
    toJson_eq_ok_of_version hapart hdump hversion
  refine ⟨⟨some version, resource.kind,
    { resource.metadata with extras := carried metadata }, carried extras⟩, ?_,
    ?_⟩
  · have hkey : apiVersionKey
        (Json.toFields
          ([("apiVersion", Json.text version), ("kind", .text resource.kind),
        ("metadata", .object (typedEntries resource.metadata ++ metadata))] ++
            extras)) =
          "apiVersion" := by
      simp [apiVersionKey, Json.field?_toFields, Entries.get?]
    have hfields := readExtras_toFields [] ["apiVersion", "kind", "metadata"]
      [("apiVersion", Json.text version), ("kind", .text resource.kind),
        ("metadata", .object (typedEntries resource.metadata ++ metadata))]
        (by simp) hfree
    simp only [read, hkey, hfields, readMetadataOf, Json.field?_toFields]
    simp only [List.cons_append, Entries.get?, String.reduceBEq,
      if_true, if_false, Bool.false_eq_true, Option.map_some, Json.toValue,
      readMetadata_dumped hapart.metadata hmetadata]
    rfl
  · have hinner := dumpExtras_carried hmetadata
    have houter := dumpExtras_carried hextras
    simp only [toJson, dumpMetadata, hinner, houter, bind, Except.bind]
    rfl

end Resource

end Fragments
