import Fragments.Proofs.Resource.Dump

namespace Fragments

namespace Entries

variable [BEq κ] [LawfulBEq κ]

theorem get?_filter (keep : κ → Bool) (entries : List (κ × ν)) (key : κ) :
    get? (entries.filter fun entry => keep entry.1) key =
      if keep key then get? entries key else none := by
  induction entries with
  | nil => split <;> rfl
  | cons entry rest ih =>
      obtain ⟨own, value⟩ := entry
      by_cases heq : own = key
      · subst heq
        rw [List.filter_cons]
        by_cases hkeep : keep own
        · rw [if_pos hkeep, if_pos hkeep, get?_cons_self, get?_cons_self]
        · rw [if_neg hkeep, ih, if_neg hkeep, if_neg hkeep]
      · rw [get?_cons_of_ne heq, ← ih, List.filter_cons]
        split
        · exact get?_cons_of_ne heq _ _
        · rfl

end Entries

namespace Resource

theorem both_eq_ok_iff {first : Checked α} {second : Checked β}
    {result : α × β} :
    both first second = .ok result ↔ first = .ok result.1 ∧
      second = .ok result.2 := by
  obtain ⟨a, b⟩ := result
  cases first <;> cases second <;> simp [both]

theorem eq_map_of_readAll_eq {read : α → Checked β} {back : β → α}
    (hread : ∀ item value, read item = .ok value → item = back value)
    {items : List α} {values : List β}
    (hall : readAll read items = .ok values) : items = values.map back := by
  induction items generalizing values with
  | nil => cases hall; rfl
  | cons item rest ih =>
      obtain ⟨⟨value, more⟩, hboth, rfl⟩ := map_eq_ok_iff.mp hall
      obtain ⟨hitem, hrest⟩ := both_eq_ok_iff.mp hboth
      rw [List.map_cons, ← hread item value hitem, ← ih hrest]

def isExtra (taken : List String) (key : Scalar) : Bool :=
  !(taken.any fun field => key == .text field)

theorem isExtra_text (taken : List String) (key : String) :
    isExtra taken (.text key) = !(taken.contains key) := by
  unfold isExtra
  rw [List.contains_eq_any_beq]
  congr 2
  funext field
  rw [Bool.eq_iff_iff, beq_iff_eq, beq_iff_eq, Scalar.text.injEq]

theorem filter_eq_of_readExtras_eq {place taken : List String}
    {entries : List (Scalar × Value)} {extras : List (String × Value)}
    (hextras : readExtras place taken entries = .ok extras) :
    entries.filter (fun entry => isExtra taken entry.1) =
      extras.map fun extra => (.text extra.1, extra.2) := by
  refine eq_map_of_readAll_eq ?_ hextras
  intro entry value hvalue
  split at hvalue
  · cases hvalue
    rfl
  · cases hvalue

theorem hasTextKeys_of_readExtras_eq {place taken : List String}
    {entries : List (Scalar × Value)} {extras : List (String × Value)}
    (hextras : readExtras place taken entries = .ok extras) :
    HasTextKeys entries := by
  intro entry hmem
  by_cases hextra : isExtra taken entry.1
  · have hfilter :
        entry ∈ entries.filter (fun entry => isExtra taken entry.1) :=
      List.mem_filter.mpr ⟨hmem, hextra⟩
    rw [filter_eq_of_readExtras_eq hextras] at hfilter
    obtain ⟨extra, -, rfl⟩ := List.mem_map.mp hfilter
    exact ⟨extra.1, rfl⟩
  · simp only [isExtra, Bool.not_eq_true', Bool.not_eq_false, List.any_eq_true,
      beq_iff_eq] at hextra
    obtain ⟨field, -, heq⟩ := hextra
    exact ⟨field, heq⟩

theorem dumpExtras_eq (extras : List (String × Value)) :
    dumpExtras extras =
      dumpEntries depthLimit
        (extras.map fun extra => (.text extra.1, extra.2)) := by
  induction extras with
  | nil => rfl
  | cons extra rest ih =>
      rw [dumpExtras, ih]
      rfl

theorem get?_dumpExtras {place taken : List String}
    {entries : List (Scalar × Value)} {extras : List (String × Value)}
    {dumped : List (String × Json)}
    (hextras : readExtras place taken entries = .ok extras)
    (hdump : dumpExtras extras = .ok dumped) (key : String) :
    (Entries.get? dumped key).map .ok =
      if taken.contains key then none
        else (Value.field? entries key).map dump := by
  rw [dumpExtras_eq, ← filter_eq_of_readExtras_eq hextras] at hdump
  have htexts : HasTextKeys
      (entries.filter fun entry => isExtra taken entry.1) :=
    fun entry hmem =>
      hasTextKeys_of_readExtras_eq hextras entry (List.mem_filter.mp hmem).1
  rw [get?_dumpEntries htexts hdump, Value.field?, Entries.get?_filter,
    isExtra_text]
  cases taken.contains key <;> rfl

section

variable {fragment : Fragment} {resource : Resource} {json : Json}

theorem read_eq_ok_of_ofFragment_eq {fileName : String}
    (hresource : ofFragment fragment fileName = .ok resource) :
    read fragment = .ok resource := by
  unfold ofFragment at hresource
  split at hresource
  · cases hresource
  · split at hresource
    · next hread =>
        cases hresource
        exact hread
    · cases hresource

theorem read_eq_ok (hread : read fragment = .ok resource) :
    readOptional false [apiVersionKey fragment.entries]
        (Value.field? fragment.entries (apiVersionKey fragment.entries)) =
        .ok resource.apiVersion ∧
      readKind (Value.field? fragment.entries "kind") = .ok resource.kind ∧
      readMetadataOf fragment = .ok resource.metadata ∧
      readExtras [] [apiVersionKey fragment.entries, "kind", "metadata"]
        fragment.entries =
        .ok resource.extras := by
  obtain ⟨parts, hparts, rfl⟩ := map_eq_ok_iff.mp hread
  obtain ⟨hversion, hparts⟩ := both_eq_ok_iff.mp hparts
  obtain ⟨hkind, hparts⟩ := both_eq_ok_iff.mp hparts
  obtain ⟨hmetadata, hextras⟩ := both_eq_ok_iff.mp hparts
  exact ⟨hversion, hkind, hmetadata, hextras⟩

theorem readMetadata_eq_ok {entries : List (Scalar × Value)}
    {metadata : Metadata} (hread : readMetadata entries = .ok metadata) :
    readTexts ["metadata", "labels"] (Value.field? entries "labels") =
      .ok metadata.labels ∧
      readTexts ["metadata", "annotations"]
      (Value.field? entries "annotations") =
        .ok metadata.annotations ∧
      readExtras ["metadata"] metadataFields entries = .ok metadata.extras := by
  obtain ⟨parts, hparts, rfl⟩ := map_eq_ok_iff.mp hread
  obtain ⟨-, hparts⟩ := both_eq_ok_iff.mp hparts
  obtain ⟨-, hparts⟩ := both_eq_ok_iff.mp hparts
  obtain ⟨hlabels, hparts⟩ := both_eq_ok_iff.mp hparts
  obtain ⟨hannotations, hextras⟩ := both_eq_ok_iff.mp hparts
  exact ⟨hlabels, hannotations, hextras⟩

theorem dumpMetadata_eq_ok {metadata : Metadata}
    (hdump : dumpMetadata metadata = .ok json) :
    ∃ extras, dumpExtras metadata.extras = .ok extras ∧
      json = .object
        (textField "name" metadata.name ++
          textField "namespace" metadata.namespace_ ++
          textsField "labels" metadata.labels ++
          textsField "annotations" metadata.annotations ++ extras) := by
  obtain ⟨extras, hextras, heq⟩ := bind_eq_ok_iff.mp hdump
  cases heq
  exact ⟨extras, hextras, rfl⟩

theorem toJson_eq_ok (hdump : toJson resource = .ok json) :
    ∃ metadata extras, dumpMetadata resource.metadata = .ok metadata ∧
      dumpExtras resource.extras = .ok extras ∧
      json = .object
        (textField "apiVersion" resource.apiVersion ++
          ("kind", .text resource.kind) ::
          ("metadata", metadata) :: extras) := by
  obtain ⟨metadata, hmetadata, hrest⟩ := bind_eq_ok_iff.mp hdump
  obtain ⟨extras, hextras, heq⟩ := bind_eq_ok_iff.mp hrest
  cases heq
  exact ⟨metadata, extras, hmetadata, hextras, rfl⟩

/-- Besides the identity, a resource is dumped field by field from its fragment.
The short form of the version is taken for the version itself where that is
missing. -/
theorem field?_toJson (hread : read fragment = .ok resource)
    (hdump : toJson resource = .ok json) {key : String} (hkind : key ≠ "kind")
    (hversion : key ≠ "apiVersion") (hmetadata : key ≠ "metadata") :
    (json.field? key).map .ok =
      if key = apiVersionKey fragment.entries then none
      else (Value.field? fragment.entries key).map dump := by
  obtain ⟨-, -, -, hextras⟩ := read_eq_ok hread
  obtain ⟨metadata, extras, -, hdumped, rfl⟩ := toJson_eq_ok hdump
  have hfield : Json.field? key
      (.object (textField "apiVersion" resource.apiVersion ++
      ("kind", .text resource.kind) :: ("metadata", metadata) :: extras)) =
        Entries.get? extras key := by
    rw [Json.field?, Entries.get?_append,
      Entries.get?_cons_of_ne (Ne.symm hkind),
      Entries.get?_cons_of_ne (Ne.symm hmetadata)]
    cases resource.apiVersion with
    | none => rfl
    | some version => rw [textField, Option.toList, List.map_cons,
        Entries.get?_cons_of_ne (Ne.symm hversion)]; rfl
  rw [hfield, get?_dumpExtras hextras hdumped]
  simp [hkind, hmetadata]

/-- A resource whose fragment is its own metadata has no dump. -/
theorem not_back_of_toJson_eq (hread : read fragment = .ok resource)
    (hdump : toJson resource = .ok json) (label : Nat) :
    Value.field? fragment.entries "metadata" ≠ some (.back label) := by
  intro hback
  obtain ⟨-, -, hmetadata, -⟩ := read_eq_ok hread
  obtain ⟨metadata, extras, hmetadataDumped, -, -⟩ := toJson_eq_ok hdump
  obtain ⟨own, hown, -⟩ := dumpMetadata_eq_ok hmetadataDumped
  rw [readMetadataOf, hback] at hmetadata
  obtain ⟨-, -, hextras⟩ := readMetadata_eq_ok hmetadata
  have hfound := get?_dumpExtras hextras hown "metadata"
  rw [hback, if_neg (by decide)] at hfound
  obtain ⟨found, -, heq⟩ := Option.map_eq_some_iff.mp hfound
  cases heq

end

end Resource

end Fragments
