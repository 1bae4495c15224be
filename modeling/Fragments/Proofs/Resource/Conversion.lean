import Fragments.Proofs.Resource.Depth

namespace Fragments

namespace Resource

/-- The text of a number; anything else as it is. -/
def asText : Json → Json
  | .int value => .text (toString value)
  | .float value => .text value.text
  | value => value

def asTexts : Json → Json
  | .object members =>
      .object (members.map fun member => (member.1, asText member.2))
  | value => value

/-- A typed field in its shape. It is left out when it is absent or null. -/
def typedField (key : String) (shape : Json → Json)
    (fields : List (String × Json)) :
    List (String × Json) :=
  match Entries.get? fields key with
  | none => []
  | some .null => []
  | some value => [(key, shape value)]

/-- The fields besides the typed ones, in their order. -/
def otherFields (taken : List String) (fields : List (String × Json)) :
    List (String × Json) :=
  fields.filter fun field => !(taken.contains field.1)

def shownMetadata (members : List (String × Json)) : List (String × Json) :=
  typedField "name" asText members ++ typedField "namespace" asText members ++
    typedField "labels" asTexts members ++
    typedField "annotations" asTexts members ++
      otherFields metadataFields members

def metadataMembers (fields : List (String × Json)) : List (String × Json) :=
  match Entries.get? fields "metadata" with
  | some (.object members) => members
  | _ => []

def resourceFields : List String := ["apiVersion", "kind", "metadata"]

def shownFields (fields : List (String × Json)) : List (String × Json) :=
  typedField "apiVersion" id fields ++ typedField "kind" id fields ++
    ("metadata", .object (shownMetadata (metadataMembers fields))) ::
      otherFields resourceFields fields

/-- The fields that are carried along, those of the metadata among them. -/
def carriedFields (fields : List (String × Json)) : List (String × Json) :=
  otherFields resourceFields fields ++ otherFields metadataFields
    (metadataMembers fields)

section

variable {numbers : Bool} {place : List String} {key : String}
  {fields : List (String × Json)}

theorem typedField_of_absent (shape : Json → Json)
    (habsent : Entries.get? fields key = none ∨
      Entries.get? fields key = some .null) :
    typedField key shape fields = [] := by
  rcases habsent with habsent | habsent <;> rw [typedField, habsent]

theorem typedField_of_get? {value : Json} (shape : Json → Json)
    (hget : Entries.get? fields key = some value) (hvalue : value ≠ .null) :
    typedField key shape fields = [(key, shape value)] := by
  rw [typedField, hget]
  split
  · next habsent => cases habsent
  · next hnull => exact absurd (Option.some.inj hnull) hvalue
  · next heq => rw [Option.some.inj heq]

theorem text_of_readText {value : Value} {json : Json} {text : String}
    (hvalue : value.unlabelled = json.toValue)
    (hread : readText numbers place value = .ok text) :
    asText json = .text text ∧ (numbers = false → json = .text text) := by
  cases value with
  | scalar value =>
      cases json with
      | text _ =>
          cases hvalue
          cases hread
          exact ⟨rfl, fun _ => rfl⟩
      | int _ | float _ =>
          cases hvalue
          cases numbers <;> cases hread
          exact ⟨rfl, nofun⟩
      | null | bool _ =>
          cases hvalue
          cases hread
      | array _ | object _ => cases hvalue
  | list _ _ | mapping _ _ | set _ _ | pair _ _ | back _ => cases hread

variable {entries : List (Scalar × Value)}
  (hentries : Value.unlabelledEntries entries = Json.toFields fields)

include hentries

theorem field?_cases (key : String) :
    (Value.field? entries key = none ∧ Entries.get? fields key = none) ∨
      (Value.field? entries key = some .null ∧
        Entries.get? fields key = some .null) ∨
      ∃ value json, Value.field? entries key = some value ∧
        Entries.get? fields key = some json ∧ value.unlabelled = json.toValue ∧
          value ≠ .null ∧ json ≠ .null := by
  have hsame : (Value.field? entries key).map Value.unlabelled =
      (Entries.get? fields key).map Json.toValue := by
    rw [← Value.field?_unlabelledEntries, hentries, Json.field?_toFields]
  cases hfield : Value.field? entries key with
  | none =>
      rw [hfield] at hsame
      exact .inl ⟨rfl, Option.map_eq_none_iff.mp hsame.symm⟩
  | some value =>
      rw [hfield] at hsame
      obtain ⟨json, hjson, hvalue⟩ := Option.map_eq_some_iff.mp hsame.symm
      rw [hjson]
      by_cases hnull : json = .null
      · subst hnull
        cases value with
        | scalar _ =>
            cases hvalue
            exact .inr (.inl ⟨rfl, rfl⟩)
        | list _ _ | mapping _ _ | set _ _ | pair _ _ | back _ => cases hvalue
      · refine .inr (.inr ⟨value, json, rfl, rfl, hvalue.symm, ?_, hnull⟩)
        rintro rfl
        exact hnull (Json.toValue_inj hvalue)

theorem textField_of_readOptional {result : Option String}
    (hread : readOptional numbers place (Value.field? entries key) =
      .ok result) :
    textField key result = typedField key asText fields ∧
      (numbers = false → textField key result = typedField key id fields) := by
  rcases field?_cases hentries key with
    ⟨hfield, hget⟩ | ⟨hfield, hget⟩ | ⟨value, json, hfield, hget, hvalue,
      hnull, hjson⟩
  · rw [hfield] at hread
    cases hread
    simp only [typedField_of_absent _ (.inl hget)]
    exact ⟨rfl, fun _ => rfl⟩
  · rw [hfield] at hread
    cases hread
    simp only [typedField_of_absent _ (.inr hget)]
    exact ⟨rfl, fun _ => rfl⟩
  · rw [hfield] at hread
    have hread : (readText numbers place value).map some = .ok result := by
      rw [← hread, readOptional]
      rintro rfl
      exact hnull rfl
    obtain ⟨text, htext, rfl⟩ := map_eq_ok_iff.mp hread
    obtain ⟨hshape, hplain⟩ := text_of_readText hvalue htext
    simp only [typedField_of_get? _ hget hjson, hshape]
    refine ⟨rfl, fun hnumbers => ?_⟩
    rw [hplain hnumbers]
    rfl

omit hentries in
theorem pairs_of_readAll {members : List (String × Json)}
    {pairs : List (String × String)}
    (hmembers : Value.unlabelledEntries entries = Json.toFields members)
    (hread : readAll (readPair place) entries = .ok pairs) :
    (pairs.map fun pair => (pair.1, Json.text pair.2)) =
      members.map fun member => (member.1, asText member.2) := by
  induction entries generalizing members pairs with
  | nil =>
      cases members with
      | nil =>
          cases hread
          rfl
      | cons _ _ => cases hmembers
  | cons entry rest ih =>
      cases members with
      | nil => cases hmembers
      | cons member more =>
          obtain ⟨key, value⟩ := entry
          simp only [Value.unlabelledEntries, Json.toFields, List.cons.injEq,
            Prod.mk.injEq]
            at hmembers
          obtain ⟨⟨rfl, hvalue⟩, hmore⟩ := hmembers
          obtain ⟨⟨pair, others⟩, hboth, rfl⟩ := map_eq_ok_iff.mp hread
          obtain ⟨hpair, hrest⟩ := both_eq_ok_iff.mp hboth
          obtain ⟨hkey, htext⟩ := both_eq_ok_iff.mp hpair
          have hkey : member.1 = pair.1 := Except.ok.inj hkey
          rw [List.map_cons, List.map_cons, ih hmore hrest, hkey,
            (text_of_readText hvalue htext).1]

theorem textsField_of_readTexts (hsound : (Json.object fields).Sound)
    {result : Option (List (String × String))}
    (hread : readTexts place (Value.field? entries key) = .ok result) :
    textsField key result = typedField key asTexts fields := by
  rcases field?_cases hentries key with
    ⟨hfield, hget⟩ | ⟨hfield, hget⟩ | ⟨value, json, hfield, hget, hvalue,
      hnull, hjson⟩
  · rw [hfield] at hread
    cases hread
    rw [typedField_of_absent _ (.inl hget)]
    rfl
  · rw [hfield] at hread
    cases hread
    rw [typedField_of_absent _ (.inr hget)]
    rfl
  · rw [hfield] at hread
    rw [typedField_of_get? _ hget hjson]
    cases value with
    | mapping label held =>
        cases json with
        | object members =>
            obtain ⟨-, hmembers⟩ := Value.mapping.inj hvalue
            obtain ⟨pairs, hpairs, rfl⟩ := map_eq_ok_iff.mp hread
            have hshown := pairs_of_readAll hmembers hpairs
            have hkeys : pairs.map Prod.fst = members.map Prod.fst := by
              have hfirst := congrArg (List.map Prod.fst) hshown
              simpa [List.map_map, Function.comp_def] using hfirst
            have hnodup : (pairs.map Prod.fst).Nodup :=
              hkeys ▸ (hsound.of_get? hget).nodup
            simp only [Entries.ofPairs_of_nodup hnodup, textsField,
              asTexts, ← hshown]
            rfl
        | null | bool _ | int _ | float _ | text _ | array _ => cases hvalue
    | scalar value =>
        cases value with
        | null => exact absurd rfl hnull
        | bool _ | int _ | float _ | text _ | bytes _ | date _ | moment _ =>
            cases hread
    | list _ _ | set _ _ | pair _ _ | back _ => cases hread

theorem unlabelledEntries_filter (taken : List String) :
    Value.unlabelledEntries
      (entries.filter fun entry => isExtra taken entry.1) =
      Json.toFields (otherFields taken fields) := by
  rw [Value.unlabelledEntries_eq_map, Json.toFields_eq_map] at hentries ⊢
  have hkept : (entries.map fun entry => (entry.1, entry.2.unlabelled)).filter
        (fun entry => isExtra taken entry.1) =
      (fields.map fun field => (Scalar.text field.1, field.2.toValue)).filter
        (fun entry => isExtra taken entry.1) := by rw [hentries]
  rw [List.filter_map, List.filter_map] at hkept
  have htexts : ((fun entry : Scalar × Value => isExtra taken entry.1) ∘
      fun field : String × Json => (Scalar.text field.1, field.2.toValue)) =
        fun field => !(taken.contains field.1) :=
    funext fun field => isExtra_text taken field.1
  rw [htexts] at hkept
  exact hkept

theorem dumpExtras_eq_ok_iff (hsound : (Json.object fields).Sound)
    {taken : List String} {extras : List (String × Value)}
    {dumped : List (String × Json)}
    (hread : readExtras place taken entries = .ok extras) :
    dumpExtras extras = .ok dumped ↔
      (∀ field ∈ otherFields taken fields, field.2.height ≤ depthLimit) ∧
        dumped = otherFields taken fields := by
  rw [dumpExtras_eq, ← filter_eq_of_readExtras_eq hread]
  exact dumpEntries_eq_ok_iff (unlabelledEntries_filter hentries taken)
    fun field hmem => hsound.of_mem (List.mem_filter.mp hmem).1

omit hentries in
theorem readMetadata_names {metadata : Metadata}
    (hread : readMetadata entries = .ok metadata) :
    readOptional true ["metadata", "name"] (Value.field? entries "name") =
      .ok metadata.name ∧
      readOptional true ["metadata", "namespace"]
      (Value.field? entries "namespace") =
        .ok metadata.namespace_ := by
  obtain ⟨parts, hparts, rfl⟩ := map_eq_ok_iff.mp hread
  obtain ⟨hname, hparts⟩ := both_eq_ok_iff.mp hparts
  obtain ⟨hnamespace, -⟩ := both_eq_ok_iff.mp hparts
  exact ⟨hname, hnamespace⟩

theorem dumpMetadata_eq_ok_iff (hsound : (Json.object fields).Sound)
    {metadata : Metadata} (hread : readMetadata entries = .ok metadata)
    {json : Json} :
    dumpMetadata metadata = .ok json ↔
      (∀ field ∈ otherFields metadataFields fields,
        field.2.height ≤ depthLimit) ∧
        json = .object (shownMetadata fields) := by
  obtain ⟨hname, hnamespace⟩ := readMetadata_names hread
  obtain ⟨hlabels, hannotations, hextras⟩ := readMetadata_eq_ok hread
  rw [dumpMetadata, bind_eq_ok_iff]
  simp only [dumpExtras_eq_ok_iff hentries hsound hextras, Except.ok.injEq,
    (textField_of_readOptional hentries hname).1,
    (textField_of_readOptional hentries hnamespace).1,
    textsField_of_readTexts hentries hsound hlabels,
    textsField_of_readTexts hentries hsound hannotations]
  constructor
  · rintro ⟨_, ⟨hheight, rfl⟩, rfl⟩
    exact ⟨hheight, rfl⟩
  · rintro ⟨hheight, rfl⟩
    exact ⟨_, ⟨hheight, rfl⟩, rfl⟩

theorem dumpMetadata_of_fragment {fragment : Fragment}
    (hfragment : fragment.entries = entries)
    (hsound : (Json.object fields).Sound) {metadata : Metadata}
    (hread : readMetadataOf fragment = .ok metadata) {json : Json} :
    dumpMetadata metadata = .ok json ↔
      (∀ field ∈ otherFields metadataFields (metadataMembers fields),
        field.2.height ≤ depthLimit) ∧
        json = .object (shownMetadata (metadataMembers fields)) := by
  unfold readMetadataOf at hread
  rw [hfragment] at hread
  unfold metadataMembers
  rcases field?_cases hentries "metadata" with
    ⟨hfield, hget⟩ | ⟨hfield, hget⟩ | ⟨value, member, hfield, hget, hvalue,
      hnull, hmember⟩
  · rw [hfield] at hread
    cases hread
    rw [hget]
    exact ⟨fun hdump => ⟨nofun, (Except.ok.inj hdump).symm⟩, fun ⟨_, hjson⟩ =>
      hjson ▸ rfl⟩
  · rw [hfield] at hread
    cases hread
  · rw [hfield] at hread
    cases value with
    | mapping label held =>
        cases member with
        | object members =>
            obtain ⟨-, hmembers⟩ := Value.mapping.inj hvalue
            rw [hget]
            exact dumpMetadata_eq_ok_iff hmembers (hsound.of_get? hget) hread
        | null | bool _ | int _ | float _ | text _ | array _ => cases hvalue
    | back label => cases member <;> cases hvalue
    | scalar _ | list _ _ | set _ _ | pair _ _ => cases hread

theorem apiVersionKey_of_get?
    (hversion : (Entries.get? fields "apiVersion").isSome = true) :
    apiVersionKey entries = "apiVersion" := by
  have hfield : (Value.field? entries "apiVersion").isNone = false := by
    rcases field?_cases hentries "apiVersion" with
      ⟨-, hget⟩ | ⟨hfield, -⟩ | ⟨value, -, hfield, -⟩
    · rw [hget] at hversion
      cases hversion
    · rw [hfield]
      rfl
    · rw [hfield]
      rfl
  rw [apiVersionKey, hfield, Bool.false_and, if_neg Bool.false_ne_true]

theorem typedField_of_readKind {kind : String}
    (hread : readKind (Value.field? entries "kind") = .ok kind) :
    typedField "kind" id fields = [("kind", .text kind)] := by
  rcases field?_cases hentries "kind" with
    ⟨hfield, -⟩ | ⟨hfield, -⟩ | ⟨value, json, hfield, hget, hvalue,
      hnull, hjson⟩
  · rw [hfield] at hread
    cases hread
  · rw [hfield] at hread
    cases hread
  · rw [hfield] at hread
    rw [typedField_of_get? _ hget hjson, (text_of_readText hvalue hread).2 rfl]
    rfl

end

theorem toJson_eq_ok_iff {fragment : Fragment} {fields : List (String × Json)}
    (hfields : Value.unlabelledEntries fragment.entries = Json.toFields fields)
    (hsound : (Json.object fields).Sound)
    (hversion : (Entries.get? fields "apiVersion").isSome = true)
    {fileName : String} {resource : Resource}
    (hresource : ofFragment fragment fileName = .ok resource) {json : Json} :
    toJson resource = .ok json ↔
      (∀ field ∈ carriedFields fields, field.2.height ≤ depthLimit) ∧
        json = .object (shownFields fields) := by
  have hread := read_eq_ok_of_ofFragment_eq hresource
  obtain ⟨hapiVersion, hkind, hmetadata, hextras⟩ := read_eq_ok hread
  rw [apiVersionKey_of_get? hfields hversion] at hapiVersion hextras
  rw [toJson, bind_eq_ok_iff]
  simp only [bind_eq_ok_iff,
    dumpMetadata_of_fragment hfields rfl hsound hmetadata,
    dumpExtras_eq_ok_iff hfields hsound hextras, Except.ok.injEq,
    (textField_of_readOptional hfields hapiVersion).2 rfl, carriedFields,
    List.forall_mem_append, shownFields, typedField_of_readKind hfields hkind]
  constructor
  · rintro ⟨_, ⟨hmembers, rfl⟩, _, ⟨hfields, rfl⟩, rfl⟩
    exact ⟨⟨hfields, hmembers⟩, by rw [List.append_assoc]; rfl⟩
  · rintro ⟨⟨hfields, hmembers⟩, rfl⟩
    exact ⟨_, ⟨hmembers, rfl⟩, _, ⟨hfields, rfl⟩, by
      rw [List.append_assoc]; rfl⟩

/-- The fields that are given under some keys, in the order of the keys. -/
def givenFields (keys : List String) (fields : List (String × Json)) :
    List (String × Json) :=
  keys.filterMap fun key => (Entries.get? fields key).map fun value =>
    (key, value)

theorem mem_givenFields_iff {keys : List String} {fields : List (String × Json)}
    {key : String} {value : Json} :
    (key, value) ∈ givenFields keys fields ↔
      key ∈ keys ∧ Entries.get? fields key = some value := by
  simp only [givenFields, List.mem_filterMap, Option.map_eq_some_iff,
    Prod.mk.injEq]
  constructor
  · rintro ⟨_, hkey, _, hget, rfl, rfl⟩
    exact ⟨hkey, hget⟩
  · rintro ⟨hkey, hget⟩
    exact ⟨key, hkey, value, hget, rfl, rfl⟩

theorem map_fst_givenFields_sublist (keys : List String)
    (fields : List (String × Json)) :
    ((givenFields keys fields).map Prod.fst).Sublist keys := by
  induction keys with
  | nil => exact .slnil
  | cons key rest ih =>
      unfold givenFields at ih ⊢
      cases hget : Entries.get? fields key with
      | none => simpa [hget] using ih.cons key
      | some value => simpa [hget] using ih.cons_cons key

theorem givenFields_append_perm {keys : List String}
    {fields : List (String × Json)} (hkeys : keys.Nodup)
    (hfields : (fields.map Prod.fst).Nodup) :
    (givenFields keys fields ++ otherFields keys fields).Perm fields := by
  have hother {field : String × Json} (hmem : field ∈ otherFields keys fields) :
      field.1 ∉ keys := by
    simpa using (List.mem_filter.mp hmem).2
  have hnodup :
      ((givenFields keys fields ++ otherFields keys fields).map
        Prod.fst).Nodup := by
    rw [List.map_append, List.nodup_append]
    refine ⟨hkeys.sublist (map_fst_givenFields_sublist keys fields),
      hfields.sublist (List.filter_sublist.map Prod.fst), ?_⟩
    rintro key hgiven _ hmem rfl
    obtain ⟨field, hfield, rfl⟩ := List.mem_map.mp hmem
    exact hother hfield
      ((map_fst_givenFields_sublist keys fields).subset hgiven)
  refine (List.perm_ext_iff_of_nodup (.of_map _ hnodup) (.of_map _ hfields)).mpr
    ?_
  rintro ⟨key, value⟩
  rw [List.mem_append, mem_givenFields_iff]
  constructor
  · rintro (⟨-, hget⟩ | hmem)
    · exact Entries.mem_of_get?_eq_some hget
    · exact (List.mem_filter.mp hmem).1
  · intro hmem
    by_cases hkey : key ∈ keys
    · exact .inl ⟨hkey, Entries.get?_eq_some_of_mem hfields hmem⟩
    · exact .inr (List.mem_filter.mpr ⟨hmem, by simpa using hkey⟩)

theorem otherFields_assign {taken : List String} {key : String}
    (hkey : key ∈ taken) (value : Json) (fields : List (String × Json)) :
    otherFields taken (Entries.assign (· == ·) key value fields) =
      otherFields taken fields := by
  induction fields with
  | nil => simp [Entries.assign, otherFields, hkey]
  | cons field rest ih =>
      obtain ⟨own, held⟩ := field
      unfold otherFields at ih ⊢
      by_cases hown : own = key
      · simp [Entries.assign, hown, hkey]
      · rw [Entries.assign, if_neg (by simpa using hown), List.filter_cons,
          List.filter_cons, ih]

/-- Whether the typed fields, as far as they are given, are texts and maps of
texts. -/
structure PlainlyTyped (fields members : List (String × Json)) : Prop where
  identity : ∀ key ∈ ["apiVersion", "kind"], ∀ value,
    Entries.get? fields key = some value →
    ∃ text, value = .text text
  names : ∀ key ∈ ["name", "namespace"], ∀ value,
    Entries.get? members key = some value →
    ∃ text, value = .text text
  maps : ∀ key ∈ ["labels", "annotations"], ∀ value,
    Entries.get? members key = some value →
    ∃ pairs : List (String × Json), value = .object pairs ∧
      ∀ pair ∈ pairs, ∃ text, pair.2 = .text text

theorem typedField_eq_given {key : String} {shape : Json → Json}
    {fields : List (String × Json)}
    (hplain : ∀ value, Entries.get? fields key = some value → value ≠ .null ∧
      shape value = value) :
    typedField key shape fields = givenFields [key] fields := by
  cases hget : Entries.get? fields key with
  | none =>
      rw [typedField_of_absent shape (.inl hget)]
      simp [givenFields, hget]
  | some value =>
      obtain ⟨hnull, hshape⟩ := hplain value hget
      rw [typedField_of_get? shape hget hnull, hshape]
      simp [givenFields, hget]

theorem asTexts_of_texts {pairs : List (String × Json)}
    (htexts : ∀ pair ∈ pairs, ∃ text, pair.2 = .text text) :
    asTexts (.object pairs) = .object pairs := by
  have hsame : (pairs.map fun pair => (pair.1, asText pair.2)) = pairs := by
    refine (List.map_congr_left fun pair hmem => ?_).trans (List.map_id' pairs)
    obtain ⟨text, htext⟩ := htexts pair hmem
    rw [htext]
    exact Prod.ext rfl htext.symm
  rw [asTexts, hsame]

theorem givenFields_append (keys more : List String)
    (fields : List (String × Json)) :
    givenFields (keys ++ more) fields = givenFields keys fields ++
    givenFields more fields :=
  List.filterMap_append

section

variable {fields members : List (String × Json)}
  (hplain : PlainlyTyped fields members)

include hplain

theorem shownMetadata_eq_given :
    shownMetadata members =
      givenFields metadataFields members ++
      otherFields metadataFields members := by
  have hname {key : String} (hkey : key ∈ ["name", "namespace"]) :
      typedField key asText members = givenFields [key] members :=
    typedField_eq_given fun value hget => by
      obtain ⟨text, rfl⟩ := hplain.names key hkey value hget
      exact ⟨nofun, rfl⟩
  have hmap {key : String} (hkey : key ∈ ["labels", "annotations"]) :
      typedField key asTexts members = givenFields [key] members :=
    typedField_eq_given fun value hget => by
      obtain ⟨pairs, rfl, htexts⟩ := hplain.maps key hkey value hget
      exact ⟨nofun, asTexts_of_texts htexts⟩
  have hfields : metadataFields = ["name"] ++ ["namespace"] ++ ["labels"] ++
      ["annotations"] := rfl
  rw [shownMetadata, hname (by simp), hname (by simp), hmap (by simp),
    hmap (by simp), ← givenFields_append, ← givenFields_append, ←
      givenFields_append, ← hfields]

theorem shownFields_eq_given
    (hmembers : Entries.get? fields "metadata" = some (.object members)) :
    let reordered :=
      Entries.assign (· == ·) "metadata"
        (.object (shownMetadata members)) fields
    shownFields fields =
      givenFields resourceFields reordered ++
      otherFields resourceFields reordered := by
  intro reordered
  have hidentity {key : String} (hkey : key ∈ ["apiVersion", "kind"]) :
      typedField key id fields = givenFields [key] reordered := by
    have hother : "metadata" ≠ key := by
      rintro rfl
      exact absurd hkey (by decide)
    have hsame : givenFields [key] reordered = givenFields [key] fields := by
      simp only [givenFields, List.filterMap_cons,
        List.filterMap_nil, reordered, Entries.get?_assign_of_ne hother]
    rw [hsame]
    refine typedField_eq_given fun value hget => ?_
    obtain ⟨text, rfl⟩ := hplain.identity key hkey value hget
    exact ⟨nofun, rfl⟩
  have hmetadata :
      [("metadata", Json.object (shownMetadata (metadataMembers fields)))] =
      givenFields ["metadata"] reordered := by
    simp [givenFields, reordered, metadataMembers, hmembers]
  have hothers : otherFields resourceFields fields =
      otherFields resourceFields reordered :=
    (otherFields_assign (by simp [resourceFields]) _ _).symm
  have hfields : resourceFields = ["apiVersion"] ++ ["kind"] ++
      ["metadata"] := rfl
  rw [hfields, givenFields_append, givenFields_append, ← hidentity (by simp),
    ← hidentity (by simp), ← hmetadata, ← hfields, ← hothers, shownFields,
    List.append_assoc _ [_]]
  rfl

end

/-- A fragment of JSON data with a version, shared or not, that becomes a
resource: the resource has a dump exactly if nothing that is carried along lies
too deep, and then shows the typed fields that are not null, numbers among them
as texts, and after them everything else in its order and as it is. If the typed
fields are texts and maps of texts already, this is the fragment but for the
order of its keys and those of its metadata. -/
theorem toJson_shows {fragment : Fragment} {fields : List (String × Json)}
    (hfields : Value.unlabelledEntries fragment.entries = Json.toFields fields)
    (hsound : (Json.object fields).Sound)
    (hversion : (Entries.get? fields "apiVersion").isSome = true)
    {fileName : String} {resource : Resource}
    (hresource : ofFragment fragment fileName = .ok resource) :
    (∀ json, toJson resource = .ok json → json = .object (shownFields fields)) ∧
      ((∃ json, toJson resource = .ok json) ↔
        ∀ field ∈ carriedFields fields, field.2.height ≤ depthLimit) ∧
      ∀ members, Entries.get? fields "metadata" = some (.object members) →
        PlainlyTyped fields members →
          (shownMetadata members).Perm members ∧
            (shownFields fields).Perm
              (Entries.assign (· == ·) "metadata"
                (.object (shownMetadata members)) fields) := by
  have hdump {json : Json} :=
    @toJson_eq_ok_iff _ _ hfields hsound hversion _ _ hresource json
  refine ⟨fun json hjson => (hdump.mp hjson).2,
    ⟨fun ⟨_, hjson⟩ => (hdump.mp hjson).1, fun hheight =>
      ⟨_, hdump.mpr ⟨hheight, rfl⟩⟩⟩, fun members hmembers hplain => ⟨?_, ?_⟩⟩
  · rw [shownMetadata_eq_given hplain]
    exact givenFields_append_perm (by decide) (hsound.of_get? hmembers).nodup
  · rw [shownFields_eq_given hplain hmembers]
    exact givenFields_append_perm (by decide)
      (Entries.nodup_assign (fun key => beq_self_eq_true key) hsound.nodup)

/-- Null and a number in typed fields, null and a field's other name among the
rest, and a list in two places. -/
theorem toJson_shows_shared :
    let fragment : Fragment :=
      ⟨none, [(.text "spec", .list (some 0) [.null]),
        (.text "apiVersion", .null),
        (.text "api_version",
          .mapping none [(.text "also", .list (some 0) [.null])]),
          (.text "metadata",
            .mapping none [(.text "extra", .null), (.text "namespace", .null),
              (.text "labels", .mapping none [(.text "n", .scalar (.int 8))]),
              (.text "name", .text "a")]),
        (.text "kind", .text "Pod")]⟩
    ∃ resource, ofFragment fragment "a-pod.json" = .ok resource ∧
      toJson resource = .ok (.object [("kind", .text "Pod"),
        ("metadata", .object
          [("name", .text "a"), ("labels", .object [("n", .text "8")]),
            ("extra", .null)]),
        ("spec", .array [.null]),
        ("api_version", .object [("also", .array [.null])])]) := by
  intro fragment
  let fields : List (String × Json) :=
    [("spec", .array [.null]), ("apiVersion", .null),
      ("api_version", .object [("also", .array [.null])]),
      ("metadata", .object [("extra", .null), ("namespace", .null),
        ("labels", .object [("n", .int 8)]), ("name", .text "a")]),
        ("kind", .text "Pod")]
  have hfields : Value.unlabelledEntries fragment.entries =
      Json.toFields fields := rfl
  have hsound : (Json.object fields).Sound := by
    constructor
    · simp [fields, Json.DistinctKeys, Json.FieldsDistinctKeys,
        Json.AllDistinctKeys]
    · simp [fields, Json.IsFinite, Json.FieldsFinite, Json.AllFinite]
  have hresource : ofFragment fragment "a-pod.json" = .ok _ := rfl
  obtain ⟨hshown, hdumps, -⟩ := toJson_shows hfields hsound rfl hresource
  obtain ⟨json, hjson⟩ := hdumps.mpr (by decide)
  exact ⟨_, hresource, hjson.trans (congrArg Except.ok (hshown json hjson))⟩

def nested : Nat → Json
  | 0 => .array []
  | depth + 1 => .array [nested depth]

theorem sound_nested (depth : Nat) : (nested depth).Sound := by
  induction depth with
  | zero => exact ⟨trivial, trivial⟩
  | succ depth ih => exact ⟨⟨ih.distinct, trivial⟩, ⟨ih.finite, trivial⟩⟩

theorem dumpIn_nested {levels depth : Nat} (hdeep : levels ≤ depth) :
    dumpIn levels (nested depth).toValue = .error tooDeep := by
  induction depth generalizing levels with
  | zero =>
      obtain rfl : levels = 0 := Nat.le_zero.mp hdeep
      rfl
  | succ depth ih =>
      cases levels with
      | zero => rfl
      | succ levels =>
          have hinner := ih (Nat.le_of_succ_le_succ hdeep)
          rw [nested, Json.toValue, dumpIn, Json.toValues, dumpItems,
            Nat.add_sub_cancel, hinner]
          rfl

def nestedFields (depth : Nat) : List (String × Json) :=
  [("apiVersion", .text "v1"), ("kind", .text "Pod"), ("spec", nested depth)]

theorem sound_nestedFields (depth : Nat) :
    (Json.object (nestedFields depth)).Sound where
  distinct := ⟨show ["apiVersion", "kind", "spec"].Nodup by
    decide, trivial, trivial, (sound_nested depth).distinct, trivial⟩
  finite := ⟨trivial, trivial, (sound_nested depth).finite, trivial⟩

theorem toJson_nestedFields {depth : Nat} (hdeep : depthLimit ≤ depth)
    (fileName : String) :
    ∃ resource, ofFragment ⟨none, Json.toFields (nestedFields depth)⟩ fileName =
      .ok resource ∧
      toJson resource = .error tooDeep := by
  refine ⟨⟨some "v1", "Pod", ⟨none, none, none, none, []⟩,
    [("spec", (nested depth).toValue)]⟩, rfl, ?_⟩
  have hspec : dump (nested depth).toValue = .error tooDeep :=
    dumpIn_nested hdeep
  simp only [toJson, dumpMetadata, dumpExtras, hspec]
  rfl

/-- Not everything that is carried along can be shown. -/
theorem not_forall_toJson_shown :
    ¬∀ (fragment : Fragment) (fields : List (String × Json)) (fileName : String)
      (resource : Resource),
      Value.unlabelledEntries fragment.entries = Json.toFields fields →
      (Json.object fields).Sound →
      (Entries.get? fields "apiVersion").isSome = true →
      ofFragment fragment fileName = .ok resource →
        toJson resource = .ok (.object (shownFields fields)) := by
  intro hall
  obtain ⟨resource, hresource, hdump⟩ :=
    toJson_nestedFields (show depthLimit ≤ 259 by decide) "a-pod.json"
  have hshown := hall _ (nestedFields 259) "a-pod.json" resource
    (Json.unlabelledEntries_toFields _) (sound_nestedFields 259) rfl hresource
  rw [hdump] at hshown
  cases hshown

end Resource

end Fragments
