import Fragments.Proofs.Data.Parts
import Fragments.Proofs.Resource.Reading

namespace Fragments

/-- A text; also a number, where `numbers` lets one stand for its text. -/
def Scalar.IsTextual (numbers : Bool) : Scalar → Prop
  | .text _ => True
  | .int _ => numbers = true
  | .float _ => numbers = true
  | _ => False

namespace Value

def IsTextual (numbers : Bool) : Value → Prop
  | scalar value => value.IsTextual numbers
  | _ => False

/-- A text that may be absent or null. -/
inductive IsTextField (numbers : Bool) : Option Value → Prop
  | absent : IsTextField numbers none
  | null : IsTextField numbers (some null)
  | given (htext : value.IsTextual numbers) : IsTextField numbers (some value)

/-- A mapping of texts or numbers to such that may be absent or null. -/
inductive IsTextsField : Option Value → Prop
  | absent : IsTextsField none
  | null : IsTextsField (some null)
  | given (htexts : ∀ entry ∈ entries, entry.1.IsTextual true ∧
      entry.2.IsTextual true) :
      IsTextsField (some (mapping label entries))

/-- What is neither text nor data of its own: bytes, also as a key, and a
container inside itself. -/
inductive Strange : Value → Prop
  | bytes : Strange (.scalar (.bytes content))
  | key (hmem : (.bytes content, value) ∈ entries) :
      Strange (.mapping label entries)
  | back : Strange (.back label)

/-- A value without bytes and without a container inside itself. -/
def IsPlain (value : Value) : Prop :=
  ∀ depth part, Occurs (fun entries entry => entry ∈ entries) depth part value →
    ¬part.Strange

@[simp] theorem isPlain_scalar_iff {value : Scalar} :
    (scalar value).IsPlain ↔ ∀ content, value ≠ .bytes content := by
  rw [IsPlain, forall_occurs_scalar_iff]
  constructor
  · rintro hplain content rfl
    exact hplain .bytes
  · intro hbytes hstrange
    cases hstrange with
    | bytes => exact hbytes _ rfl

@[simp] theorem isPlain_list_iff {label : Option Nat} {items : List Value} :
    (list label items).IsPlain ↔ ∀ item ∈ items, item.IsPlain := by
  rw [IsPlain, forall_occurs_list_iff]
  exact and_iff_right nofun

@[simp] theorem isPlain_mapping_iff {label : Option Nat}
    {entries : List (Scalar × Value)} :
    (mapping label entries).IsPlain ↔
      ∀ entry ∈ entries, (∀ content, entry.1 ≠ .bytes content) ∧
        entry.2.IsPlain := by
  rw [IsPlain, forall_occurs_mapping_iff]
  constructor
  · rintro ⟨hown, hentries⟩ ⟨key, value⟩ hmem
    refine ⟨?_, hentries _ hmem⟩
    rintro content rfl
    exact hown (.key hmem)
  · intro hentries
    refine ⟨fun hstrange => ?_, fun entry hmem => (hentries entry hmem).2⟩
    cases hstrange with
    | key hmem => exact (hentries _ hmem).1 _ rfl

theorem IsPlain.of_field? {label : Option Nat} {entries : List (Scalar × Value)}
    (hplain : (mapping label entries).IsPlain) {key : String} {value : Value}
    (hfield : field? entries key = some value) : value.IsPlain :=
  (isPlain_mapping_iff.mp hplain _ (mem_of_field?_eq_some hfield)).2

end Value

namespace Resource

structure ShapedMetadata (entries : List (Scalar × Value)) : Prop where
  keys : HasTextKeys entries
  name : Value.IsTextField true (Value.field? entries "name")
  namespace_ : Value.IsTextField true (Value.field? entries "namespace")
  labels : Value.IsTextsField (Value.field? entries "labels")
  annotations : Value.IsTextsField (Value.field? entries "annotations")

/-- A fragment whose identity fields have their shapes and whose keys are
texts. -/
structure Shaped (fragment : Fragment) : Prop where
  keys : HasTextKeys fragment.entries
  version : Value.IsTextField false (Value.field? fragment.entries "apiVersion")
  kind : ∃ kind, Value.field? fragment.entries "kind" = some (.text kind)
  metadata : Value.field? fragment.entries "metadata" = none ∨
    ∃ label entries,
      Value.field? fragment.entries "metadata" = some (.mapping label entries) ∧
      ShapedMetadata entries

/-- The short form of the version has the shape of the version where it stands
for it. -/
structure WellShaped (fragment : Fragment) : Prop extends Shaped fragment where
  shortVersion : Value.field? fragment.entries "apiVersion" = none →
    Value.IsTextField false (Value.field? fragment.entries "api_version")

/-- The fields of a fragment; `text` and `texts` are those of its metadata. -/
inductive Field
  | version
  | kind
  | metadata
  | text (key : String)
  | texts (key : String)
  | metadataKeys
  | keys
  deriving DecidableEq

/-- The fields in the order of the report. -/
def Field.all : List Field :=
  [.version, .kind, .metadata, .text "name", .text "namespace", .texts "labels",
    .texts "annotations", .metadataKeys, .keys]

theorem Field.text_mem_all_iff {key : String} :
    text key ∈ all ↔ key = "name" ∨ key = "namespace" := by
  simp [all]

theorem Field.texts_mem_all_iff {key : String} :
    texts key ∈ all ↔ key = "labels" ∨ key = "annotations" := by
  simp [all]

inductive IllText (numbers : Bool) (place : List String)
    (given : Option Value) : Complaint → Prop
  | value (hill : ¬Value.IsTextField numbers given) :
      IllText numbers place given ⟨place, notText⟩

inductive IllTexts (place : List String) (given : Option Value) :
    Complaint → Prop
  | value (hgiven : given = some value) (hnull : value ≠ .null)
      (hmapping : ∀ label entries, value ≠ .mapping label entries) :
      IllTexts place given ⟨place, "Input should be a valid dictionary"⟩
  | key (hgiven : given = some (.mapping label entries))
      (hmem : entry ∈ entries) (hill : ¬entry.1.IsTextual true) :
      IllTexts place given ⟨place ++ [keyShown entry.1, "[key]"], notText⟩
  | text (hgiven : given = some (.mapping label entries))
      (hmem : entry ∈ entries) (hill : ¬entry.2.IsTextual true) :
      IllTexts place given ⟨place ++ [keyShown entry.1], notText⟩

inductive IllKey (place : List String) (entries : List (Scalar × Value)) :
    Complaint → Prop
  | key (hmem : entry ∈ entries) (hill : ∀ text, entry.1 ≠ .text text) :
      IllKey place entries
        ⟨place ++ [keyShown entry.1], "Keys should be strings"⟩

/-- What is wrong with a field of a fragment, and where. -/
inductive Ill (fragment : Fragment) : Field → Complaint → Prop
  | version
      (hill : IllText false ["apiVersion"]
        (Value.field? fragment.entries "apiVersion") complaint) :
      Ill fragment .version complaint
  | shortVersion (habsent : Value.field? fragment.entries "apiVersion" = none)
      (hill : IllText false ["api_version"]
        (Value.field? fragment.entries "api_version") complaint) :
      Ill fragment .version complaint
  | noKind (habsent : Value.field? fragment.entries "kind" = none) :
      Ill fragment .kind ⟨["kind"], "Field required"⟩
  | kind (hkind : Value.field? fragment.entries "kind" = some value)
      (hill : ¬value.IsTextual false) : Ill fragment .kind ⟨["kind"], notText⟩
  | metadata (hmetadata : Value.field? fragment.entries "metadata" = some value)
      (hill : ∀ label entries, value ≠ .mapping label entries) :
      Ill fragment .metadata
        ⟨["metadata"],
          "Input should be a valid dictionary or instance of ObjectMeta"⟩
  | text (hmetadata : Value.field? fragment.entries "metadata" =
      some (.mapping label entries))
      (hill : IllText true ["metadata", key] (Value.field? entries key)
        complaint) :
      Ill fragment (.text key) complaint
  | texts (hmetadata : Value.field? fragment.entries "metadata" =
      some (.mapping label entries))
      (hill : IllTexts ["metadata", key] (Value.field? entries key) complaint) :
      Ill fragment (.texts key) complaint
  | metadataKeys
      (hmetadata : Value.field? fragment.entries "metadata" =
        some (.mapping label entries))
      (hill : IllKey ["metadata"] entries complaint) :
      Ill fragment .metadataKeys complaint
  | keys (hill : IllKey [] fragment.entries complaint) :
      Ill fragment .keys complaint

theorem isTextual_false_iff {value : Value} :
    value.IsTextual false ↔ ∃ text, value = .text text := by
  cases value with
  | scalar value =>
      cases value <;> simp [Value.IsTextual, Scalar.IsTextual, Value.text]
  | list _ _ | mapping _ _ | set _ _ | pair _ _ | back _ =>
      simp [Value.IsTextual, Value.text]

theorem hasTextKeys_iff {place : List String}
    {entries : List (Scalar × Value)} :
    HasTextKeys entries ↔ ∀ complaint, ¬IllKey place entries complaint := by
  constructor
  · rintro htexts _ ⟨hmem, hill⟩
    obtain ⟨text, htext⟩ := htexts _ hmem
    exact hill text htext
  · intro hnone entry hmem
    by_contra hill
    exact hnone _ (.key hmem (not_exists.mp hill))

theorem isTextField_iff {numbers : Bool} {place : List String}
    {given : Option Value} :
    Value.IsTextField numbers given ↔
      ∀ complaint, ¬IllText numbers place given complaint :=
  ⟨fun htext _ ⟨hill⟩ => hill htext, fun hnone => not_not.mp fun hill =>
    hnone _ (.value hill)⟩

theorem isTextsField_iff {place : List String} {given : Option Value} :
    Value.IsTextsField given ↔
      ∀ complaint, ¬IllTexts place given complaint := by
  constructor
  · intro htexts complaint hill
    cases htexts with
    | absent => cases hill <;> contradiction
    | null =>
        cases hill with
        | value hgiven hnull => exact hnull (Option.some.inj hgiven).symm
        | key hgiven | text hgiven => cases hgiven
    | given htexts =>
        cases hill with
        | value hgiven _ hmapping =>
            exact hmapping _ _ (Option.some.inj hgiven).symm
        | key hgiven hmem hill => cases hgiven; exact hill (htexts _ hmem).1
        | text hgiven hmem hill => cases hgiven; exact hill (htexts _ hmem).2
  · intro hnone
    cases given with
    | none => exact .absent
    | some value =>
        by_cases hnull : value = .null
        · exact hnull ▸ .null
        by_cases hmapping : ∃ label entries, value = .mapping label entries
        · obtain ⟨label, entries, rfl⟩ := hmapping
          refine .given fun entry hmem => ⟨?_, ?_⟩
          · by_contra hill
            exact hnone _ (.key rfl hmem hill)
          · by_contra hill
            exact hnone _ (.text rfl hmem hill)
        · refine absurd (.value rfl hnull fun label entries heq => ?_) (hnone _)
          exact hmapping ⟨label, entries, heq⟩

variable {fragment : Fragment} {label : Option Nat}
  {entries : List (Scalar × Value)}

theorem Shaped.shapedMetadata (hshaped : Shaped fragment)
    (hmetadata : Value.field? fragment.entries "metadata" =
      some (.mapping label entries)) :
    ShapedMetadata entries := by
  rcases hshaped.metadata with habsent | ⟨_, _, hown, hmembers⟩
  · cases habsent.symm.trans hmetadata
  · cases hown.symm.trans hmetadata
    exact hmembers

theorem WellShaped.not_ill (hshaped : WellShaped fragment) {field : Field}
    (hfield : field ∈ Field.all) (complaint : Complaint) :
    ¬Ill fragment field complaint := by
  intro hill
  cases hill with
  | version hill => exact isTextField_iff.mp hshaped.version _ hill
  | shortVersion habsent hill =>
      exact isTextField_iff.mp (hshaped.shortVersion habsent) _ hill
  | noKind habsent =>
      obtain ⟨kind, hkind⟩ := hshaped.kind
      cases habsent.symm.trans hkind
  | kind hown hill =>
      obtain ⟨kind, hkind⟩ := hshaped.kind
      cases hown.symm.trans hkind
      exact hill trivial
  | metadata hown hill =>
      rcases hshaped.metadata with habsent | ⟨label, entries, hmetadata, -⟩
      · cases habsent.symm.trans hown
      · cases hown.symm.trans hmetadata
        exact hill label entries rfl
  | text hmetadata hill =>
      have hmembers := hshaped.shapedMetadata hmetadata
      rcases Field.text_mem_all_iff.mp hfield with rfl | rfl
      · exact isTextField_iff.mp hmembers.name _ hill
      · exact isTextField_iff.mp hmembers.namespace_ _ hill
  | texts hmetadata hill =>
      have hmembers := hshaped.shapedMetadata hmetadata
      rcases Field.texts_mem_all_iff.mp hfield with rfl | rfl
      · exact isTextsField_iff.mp hmembers.labels _ hill
      · exact isTextsField_iff.mp hmembers.annotations _ hill
  | metadataKeys hmetadata hill =>
      exact hasTextKeys_iff.mp (hshaped.shapedMetadata hmetadata).keys _ hill
  | keys hill => exact hasTextKeys_iff.mp hshaped.keys _ hill

section

variable (hnone : ∀ field ∈ Field.all, ∀ complaint,
  ¬Ill fragment field complaint)

include hnone

theorem shapedMetadata_of_not_ill
    (hmetadata : Value.field? fragment.entries "metadata" =
      some (.mapping label entries)) :
    ShapedMetadata entries where
  keys := hasTextKeys_iff.mpr fun _ hill =>
    hnone _ (by decide) _ (.metadataKeys hmetadata hill)
  name := isTextField_iff.mpr fun _ hill =>
    hnone _ (by decide) _ (.text hmetadata hill)
  namespace_ := isTextField_iff.mpr fun _ hill =>
    hnone _ (by decide) _ (.text hmetadata hill)
  labels := isTextsField_iff.mpr fun _ hill =>
    hnone _ (by decide) _ (.texts hmetadata hill)
  annotations := isTextsField_iff.mpr fun _ hill =>
    hnone _ (by decide) _ (.texts hmetadata hill)

theorem shaped_of_not_ill : Shaped fragment where
  keys := hasTextKeys_iff.mpr fun _ hill => hnone _ (by decide) _ (.keys hill)
  version := isTextField_iff.mpr fun _ hill =>
    hnone _ (by decide) _ (.version hill)
  kind := by
    cases hkind : Value.field? fragment.entries "kind" with
    | none => exact (hnone _ (by decide) _ (.noKind hkind)).elim
    | some value =>
        by_cases htext : value.IsTextual false
        · obtain ⟨kind, rfl⟩ := isTextual_false_iff.mp htext
          exact ⟨kind, rfl⟩
        · exact (hnone _ (by decide) _ (.kind hkind htext)).elim
  metadata := by
    cases hmetadata : Value.field? fragment.entries "metadata" with
    | none => exact .inl rfl
    | some value =>
        by_cases hmapping : ∃ label entries, value = .mapping label entries
        · obtain ⟨label, entries, rfl⟩ := hmapping
          exact .inr ⟨label, entries, rfl,
            shapedMetadata_of_not_ill hnone hmetadata⟩
        · refine (hnone _ (by decide) _
            (.metadata hmetadata fun label entries heq => ?_)).elim
          exact hmapping ⟨label, entries, heq⟩

end

/-- A fragment is well-shaped when nothing is wrong with any of its fields. -/
theorem wellShaped_iff :
    WellShaped fragment ↔ ∀ field ∈ Field.all, ∀ complaint,
      ¬Ill fragment field complaint := by
  constructor
  · intro hshaped field hfield complaint
    exact hshaped.not_ill hfield complaint
  · intro hnone
    refine ⟨shaped_of_not_ill hnone, fun habsent => ?_⟩
    exact isTextField_iff.mpr fun _ hill =>
      hnone _ (by decide) _ (.shortVersion habsent hill)

end Resource

end Fragments
