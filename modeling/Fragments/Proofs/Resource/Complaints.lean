import Fragments.Proofs.Resource.Shape

namespace Fragments

namespace Resource

/-- The complaints of a reader; none when it gives a value. -/
def complaints : Checked α → List Complaint
  | .ok _ => []
  | .error found => found

theorem complaints_map (change : α → β) (outcome : Checked α) :
    complaints (outcome.map change) = complaints outcome := by
  cases outcome <;> rfl

theorem complaints_both (first : Checked α) (second : Checked β) :
    complaints (both first second) = complaints first ++ complaints second := by
  cases first <;> cases second <;> simp [both, complaints]

theorem complaints_readAll (read : α → Checked β) (items : List α) :
    complaints (readAll read items) = items.flatMap fun item =>
      complaints (read item) := by
  induction items with
  | nil => rfl
  | cons item rest ih =>
      rw [readAll, complaints_map, complaints_both, ih, List.flatMap_cons]

/-- Whether a reader that gives no value complains of something. -/
abbrev Complains (outcome : Checked α) : Prop :=
  FailsOnly (fun found => found ≠ []) outcome

theorem Complains.both {first : Checked α} {second : Checked β}
    (hfirst : Complains first) (hsecond : Complains second) :
    Complains (Resource.both first second) := by
  cases first with
  | ok a =>
      cases second with
      | ok b => exact .ok _
      | error found => exact .error (hsecond found rfl)
  | error found =>
      cases second with
      | ok b => exact .error (hfirst found rfl)
      | error more => exact .error (by simp [hfirst found rfl])

theorem Complains.readAll {read : α → Checked β}
    (hread : ∀ item, Complains (read item)) (items : List α) :
    Complains (Resource.readAll read items) := by
  induction items with
  | nil => exact .ok _
  | cons item rest ih => exact ((hread item).both ih).map _

theorem exists_ok_iff {outcome : Checked α} (hcomplains : Complains outcome) :
    (∃ value, outcome = .ok value) ↔ complaints outcome = [] := by
  cases outcome with
  | ok value => exact iff_of_true ⟨value, rfl⟩ rfl
  | error found =>
      exact iff_of_false (fun ⟨_, heq⟩ => by cases heq) (hcomplains found rfl)

section

variable {numbers : Bool} {place : List String} {complaint : Complaint}

theorem textOf_cases (numbers : Bool) {value : Scalar}
    (hbytes : ∀ content, value ≠ .bytes content) :
    (value.IsTextual numbers ∧ ∃ text, textOf numbers value = .ok text) ∨
      (¬value.IsTextual numbers ∧ textOf numbers value = .error notText) := by
  cases value with
  | text value => exact .inl ⟨trivial, value, rfl⟩
  | int value =>
      cases numbers with
      | true => exact .inl ⟨rfl, _, rfl⟩
      | false => exact .inr ⟨Bool.false_ne_true, rfl⟩
  | float value =>
      cases numbers with
      | true => exact .inl ⟨rfl, _, rfl⟩
      | false => exact .inr ⟨Bool.false_ne_true, rfl⟩
  | bytes content => exact absurd rfl (hbytes content)
  | null | bool _ | date _ | moment _ => exact .inr ⟨id, rfl⟩

theorem mem_complaints_readText {value : Value} (hplain : value.IsPlain) :
    complaint ∈ complaints (readText numbers place value) ↔
      ¬value.IsTextual numbers ∧ complaint = ⟨place, notText⟩ := by
  cases value with
  | scalar value =>
      rcases textOf_cases numbers (Value.isPlain_scalar_iff.mp hplain) with
        ⟨htext, text, hread⟩ | ⟨hill, hread⟩
      · simp [readText, hread, complaints, Value.IsTextual, htext]
      · simp [readText, hread, complaints, Value.IsTextual, hill]
  | list _ _ | mapping _ _ | set _ _ | pair _ _ | back _ =>
      simp [readText, complaints, Value.IsTextual]

theorem isTextField_some_iff {value : Value} :
    Value.IsTextField numbers (some value) ↔ value = .null ∨
      value.IsTextual numbers := by
  constructor
  · intro hfield
    cases hfield with
    | null => exact .inl rfl
    | given htext => exact .inr htext
  · rintro (rfl | htext)
    · exact .null
    · exact .given htext

theorem not_illText_none : ¬IllText numbers place none complaint :=
  fun ⟨hill⟩ => hill .absent

theorem not_illTexts_none : ¬IllTexts place none complaint := by
  intro hill
  cases hill with
  | value hgiven | key hgiven | text hgiven => cases hgiven

theorem mem_complaints_readOptional {given : Option Value}
    (hplain : ∀ value, given = some value → value.IsPlain) :
    complaint ∈ complaints (readOptional numbers place given) ↔
      IllText numbers place given complaint := by
  cases given with
  | none => exact iff_of_false List.not_mem_nil not_illText_none
  | some value =>
      by_cases hnull : value = .null
      · subst hnull
        exact iff_of_false List.not_mem_nil fun ⟨hill⟩ => hill .null
      · have hread : readOptional numbers place (some value) =
            (readText numbers place value).map some := by
          rw [readOptional]
          rintro rfl
          exact hnull rfl
        rw [hread, complaints_map, mem_complaints_readText (hplain value rfl)]
        constructor
        · rintro ⟨hill, rfl⟩
          exact .value (by simp [isTextField_some_iff, hnull, hill])
        · rintro ⟨hill⟩
          exact ⟨fun htext => hill (.given htext), rfl⟩

theorem mem_complaints_readPair {entry : Scalar × Value}
    (hkey : ∀ content, entry.1 ≠ .bytes content) (hvalue : entry.2.IsPlain) :
    complaint ∈ complaints (readPair place entry) ↔
      (¬entry.1.IsTextual true ∧
        complaint = ⟨place ++ [keyShown entry.1, "[key]"], notText⟩) ∨
        (¬entry.2.IsTextual true ∧
          complaint = ⟨place ++ [keyShown entry.1], notText⟩) := by
  rw [readPair, complaints_both, List.mem_append,
    mem_complaints_readText hvalue]
  refine or_congr_left ?_
  rcases textOf_cases true hkey with ⟨htext, text, hread⟩ | ⟨hill, hread⟩
  · simp [hread, complaints, htext]
  · simp [hread, complaints, hill]

theorem mem_complaints_readTexts {given : Option Value}
    (hplain : ∀ value, given = some value → value.IsPlain) :
    complaint ∈ complaints (readTexts place given) ↔
      IllTexts place given complaint := by
  fun_cases readTexts place given with
  | case1 => exact iff_of_false List.not_mem_nil not_illTexts_none
  | case2 =>
      refine iff_of_false List.not_mem_nil fun hill => ?_
      cases hill with
      | value hgiven hnull => exact hnull (Option.some.inj hgiven).symm
      | key hgiven | text hgiven => cases hgiven
  | case3 label entries =>
      have hown := Value.isPlain_mapping_iff.mp (hplain _ rfl)
      have hpair (entry : Scalar × Value) (hmem : entry ∈ entries) :
          complaint ∈ complaints (readPair place entry) ↔ _ :=
        mem_complaints_readPair (hown entry hmem).1 (hown entry hmem).2
      rw [complaints_map, complaints_readAll, List.mem_flatMap]
      constructor
      · rintro ⟨entry, hmem, hfound⟩
        rcases (hpair entry hmem).mp hfound with
          ⟨hill, rfl⟩ | ⟨hill, rfl⟩
        · exact .key rfl hmem hill
        · exact .text rfl hmem hill
      · intro hill
        cases hill with
        | value hgiven _ hmapping =>
            exact absurd (Option.some.inj hgiven).symm (hmapping _ _)
        | key hgiven hmem hill =>
            cases hgiven
            exact ⟨_, hmem, (hpair _ hmem).mpr (.inl ⟨hill, rfl⟩)⟩
        | text hgiven hmem hill =>
            cases hgiven
            exact ⟨_, hmem, (hpair _ hmem).mpr (.inr ⟨hill, rfl⟩)⟩
  | case4 value hnull hmapping =>
      rw [complaints, List.mem_singleton]
      constructor
      · rintro rfl
        exact .value rfl (fun heq => hnull heq)
          (fun label entries heq => hmapping label entries heq)
      · intro hill
        cases hill with
        | value => rfl
        | key hgiven | text hgiven =>
            exact absurd (Option.some.inj hgiven) (hmapping _ _)

theorem not_illKey_nil : ¬IllKey place [] complaint := by
  intro hill
  cases hill with
  | key hmem => cases hmem

theorem mem_complaints_readExtras {taken : List String}
    {entries : List (Scalar × Value)} :
    complaint ∈ complaints (readExtras place taken entries) ↔
      IllKey place entries complaint := by
  rw [readExtras, complaints_readAll, List.mem_flatMap]
  constructor
  · rintro ⟨⟨key, value⟩, hmem, hfound⟩
    split at hfound
    · cases hfound
    · next own held hill heq =>
        cases heq
        rw [complaints, List.mem_singleton] at hfound
        subst hfound
        exact .key (List.mem_filter.mp hmem).1 hill
  · rintro ⟨hmem, hill⟩
    next entry =>
    have hextra : isExtra taken entry.1 = true := by
      simp [isExtra, hill]
    refine ⟨entry, List.mem_filter.mpr ⟨hmem, hextra⟩, ?_⟩
    split
    · next key value => exact absurd rfl (hill key)
    · exact List.mem_singleton_self _

theorem complains_readText (value : Value) :
    Complains (readText numbers place value) := by
  unfold readText
  split
  · split
    · exact .ok _
    · exact .error (List.cons_ne_nil _ _)
  · exact .error (List.cons_ne_nil _ _)

theorem complains_readOptional (given : Option Value) :
    Complains (readOptional numbers place given) := by
  unfold readOptional
  split
  · exact .ok _
  · exact .ok _
  · exact (complains_readText _).map some

theorem complains_readTexts (given : Option Value) :
    Complains (readTexts place given) := by
  have hpair (entry : Scalar × Value) : Complains (readPair place entry) := by
    refine Complains.both ?_ (complains_readText _)
    split
    · exact .ok _
    · exact .error (List.cons_ne_nil _ _)
  unfold readTexts
  split
  · exact .ok _
  · exact .ok _
  · exact (Complains.readAll hpair _).map _
  · exact .error (List.cons_ne_nil _ _)

theorem complains_readExtras (taken : List String)
    (entries : List (Scalar × Value)) :
    Complains (readExtras place taken entries) := by
  refine Complains.readAll (fun entry => ?_) _
  split
  · exact .ok _
  · exact .error (List.cons_ne_nil _ _)

theorem complains_readKind (given : Option Value) :
    Complains (readKind given) := by
  unfold readKind
  split
  · exact .error (List.cons_ne_nil _ _)
  · exact complains_readText _

theorem complains_readMetadataOf (fragment : Fragment) :
    Complains (readMetadataOf fragment) := by
  have hentries (entries : List (Scalar × Value)) :
      Complains (readMetadata entries) :=
    ((complains_readOptional _).both ((complains_readOptional _).both
      ((complains_readTexts _).both ((complains_readTexts _).both
        (complains_readExtras _ _))))).map _
  unfold readMetadataOf
  split
  · exact .ok _
  · exact hentries _
  · exact hentries _
  · exact .error (List.cons_ne_nil _ _)

theorem complains_read (fragment : Fragment) : Complains (read fragment) :=
  ((complains_readOptional _).both ((complains_readKind _).both
    ((complains_readMetadataOf fragment).both (complains_readExtras _ _)))).map
    _

end

def members (fragment : Fragment) : List (Scalar × Value) :=
  match Value.field? fragment.entries "metadata" with
  | some (.mapping _ entries) => entries
  | _ => []

theorem members_iff {fragment : Fragment} (holds : List (Scalar × Value) → Prop)
    (hnone : ¬holds []) :
    holds (members fragment) ↔
      ∃ label entries,
        Value.field? fragment.entries "metadata" =
          some (.mapping label entries) ∧
        holds entries := by
  unfold members
  split
  · next label entries hmetadata =>
      rw [hmetadata]
      constructor
      · intro hholds
        exact ⟨label, entries, rfl, hholds⟩
      · rintro ⟨_, _, heq, hholds⟩
        cases heq
        exact hholds
  · next hmapping =>
      refine iff_of_false hnone ?_
      rintro ⟨label, entries, hmetadata, -⟩
      exact hmapping label entries hmetadata

/-- The complaints of the readers of a field. -/
def reported (fragment : Fragment) : Field → List Complaint
  | .version =>
      complaints (readOptional false [apiVersionKey fragment.entries]
        (Value.field? fragment.entries (apiVersionKey fragment.entries)))
  | .kind => complaints (readKind (Value.field? fragment.entries "kind"))
  | .metadata =>
      match Value.field? fragment.entries "metadata" with
      | none => []
      | some (.mapping _ _) => []
      | some _ =>
          [⟨["metadata"],
            "Input should be a valid dictionary or instance of ObjectMeta"⟩]
  | .text key =>
      complaints (readOptional true ["metadata", key]
        (Value.field? (members fragment) key))
  | .texts key =>
      complaints (readTexts ["metadata", key]
        (Value.field? (members fragment) key))
  | .metadataKeys =>
      complaints (readExtras ["metadata"] metadataFields (members fragment))
  | .keys =>
      complaints
        (readExtras [] [apiVersionKey fragment.entries, "kind", "metadata"]
          fragment.entries)

section

variable {fragment : Fragment} (hplain : fragment.toValue.IsPlain)

include hplain

theorem not_back_of_isPlain (label : Nat) :
    Value.field? fragment.entries "metadata" ≠ some (.back label) :=
  fun hback => hplain.of_field? hback 0 _ .here .back

theorem complaints_readMetadataOf :
    complaints (readMetadataOf fragment) =
      [Field.metadata, .text "name", .text "namespace", .texts "labels",
        .texts "annotations", .metadataKeys].flatMap (reported fragment) := by
  have hback := not_back_of_isPlain hplain
  unfold readMetadataOf
  cases hfield : Value.field? fragment.entries "metadata" with
  | none =>
      simp only [List.flatMap_cons, reported, members, hfield]
      rfl
  | some value =>
      cases value with
      | mapping label entries =>
          simp only [readMetadata, complaints_map, complaints_both,
            List.flatMap_cons, List.flatMap_nil, List.append_nil, reported,
            members, hfield, List.nil_append]
      | back label => exact absurd hfield (hback label)
      | scalar _ | list _ _ | set _ _ | pair _ _ =>
          simp only [List.flatMap_cons, reported, members, hfield]
          rfl

theorem complaints_read :
    complaints (read fragment) = Field.all.flatMap (reported fragment) := by
  have hall : Field.all = .version :: .kind ::
      ([.metadata, .text "name", .text "namespace", .texts "labels",
        .texts "annotations", .metadataKeys] ++ [.keys]) := rfl
  rw [hall, List.flatMap_cons, List.flatMap_cons, List.flatMap_append,
    List.flatMap_singleton, ← complaints_readMetadataOf hplain, read]
  simp only [complaints_map, complaints_both, reported]

theorem isPlain_of_members {key : String} {value : Value}
    (hfield : Value.field? (members fragment) key = some value) :
    value.IsPlain := by
  unfold members at hfield
  split at hfield
  · next label entries hmetadata =>
      exact (hplain.of_field? hmetadata).of_field? hfield
  · cases hfield

omit hplain in
theorem ill_version_iff {complaint : Complaint} :
    Ill fragment .version complaint ↔
      IllText false [apiVersionKey fragment.entries]
        (Value.field? fragment.entries (apiVersionKey fragment.entries))
          complaint := by
  unfold apiVersionKey
  cases hversion : Value.field? fragment.entries "apiVersion" with
  | some value =>
      rw [Option.isNone_some, Bool.false_and, if_neg Bool.false_ne_true]
      constructor
      · intro hill
        cases hill with
        | version hill => exact hill
        | shortVersion habsent => rw [hversion] at habsent; cases habsent
      · exact .version
  | none =>
      cases hshort : Value.field? fragment.entries "api_version" with
      | none =>
          rw [Option.isSome_none, Bool.and_false,
            if_neg Bool.false_ne_true, hversion]
          refine iff_of_false (fun hill => ?_) not_illText_none
          cases hill with
          | version hill => exact not_illText_none (hversion ▸ hill)
          | shortVersion _ hill => exact not_illText_none (hshort ▸ hill)
      | some value =>
          rw [Option.isNone_none, Option.isSome_some, Bool.and_self, if_pos rfl]
          constructor
          · intro hill
            cases hill with
            | version hill => exact absurd (hversion ▸ hill) not_illText_none
            | shortVersion _ hill => exact hill
          · exact .shortVersion hversion

theorem mem_reported_kind_iff {complaint : Complaint} :
    complaint ∈ reported fragment .kind ↔ Ill fragment .kind complaint := by
  rw [reported]
  cases hkind : Value.field? fragment.entries "kind" with
  | none =>
      rw [readKind, complaints, List.mem_singleton]
      constructor
      · rintro rfl
        exact .noKind hkind
      · intro hill
        cases hill with
        | noKind => rfl
        | kind hown => cases hkind.symm.trans hown
  | some value =>
      rw [readKind, mem_complaints_readText (hplain.of_field? hkind)]
      constructor
      · rintro ⟨hill, rfl⟩
        exact .kind hkind hill
      · intro hill
        cases hill with
        | noKind habsent => cases hkind.symm.trans habsent
        | kind hown hill =>
            cases hkind.symm.trans hown
            exact ⟨hill, rfl⟩

omit hplain in
theorem mem_reported_metadata_iff {complaint : Complaint} :
    complaint ∈ reported fragment .metadata ↔
      Ill fragment .metadata complaint := by
  rw [reported]
  split
  · next habsent =>
      refine iff_of_false List.not_mem_nil fun hill => ?_
      cases hill with
      | metadata hown => cases habsent.symm.trans hown
  · next label entries hmetadata =>
      refine iff_of_false List.not_mem_nil fun hill => ?_
      cases hill with
      | metadata hown hill =>
          cases hmetadata.symm.trans hown
          exact hill label entries rfl
  · next value hmapping hmetadata =>
      rw [List.mem_singleton]
      constructor
      · rintro rfl
        exact .metadata hmetadata hmapping
      · intro hill
        cases hill with
        | metadata => rfl

/-- The readers of a field complain of what is wrong with it and of nothing
else. -/
theorem mem_reported_iff {field : Field} {complaint : Complaint} :
    complaint ∈ reported fragment field ↔ Ill fragment field complaint := by
  cases field with
  | version =>
      rw [reported, mem_complaints_readOptional fun _ hfield =>
        hplain.of_field? hfield, ill_version_iff]
  | kind => exact mem_reported_kind_iff hplain
  | metadata => exact mem_reported_metadata_iff
  | text key =>
      rw [reported, mem_complaints_readOptional fun _ hfield =>
        isPlain_of_members hplain hfield,
          members_iff (fun entries =>
            IllText _ _ (Value.field? entries key) complaint) not_illText_none]
      constructor
      · rintro ⟨label, entries, hmetadata, hill⟩
        exact .text hmetadata hill
      · intro hill
        cases hill with
        | text hmetadata hill => exact ⟨_, _, hmetadata, hill⟩
  | texts key =>
      rw [reported, mem_complaints_readTexts fun _ hfield =>
        isPlain_of_members hplain hfield,
          members_iff (fun entries =>
            IllTexts _ (Value.field? entries key) complaint) not_illTexts_none]
      constructor
      · rintro ⟨label, entries, hmetadata, hill⟩
        exact .texts hmetadata hill
      · intro hill
        cases hill with
        | texts hmetadata hill => exact ⟨_, _, hmetadata, hill⟩
  | metadataKeys =>
      rw [reported, mem_complaints_readExtras,
        members_iff (fun entries => IllKey _ entries complaint) not_illKey_nil]
      constructor
      · rintro ⟨label, entries, hmetadata, hill⟩
        exact .metadataKeys hmetadata hill
      · intro hill
        cases hill with
        | metadataKeys hmetadata hill => exact ⟨_, _, hmetadata, hill⟩
  | keys =>
      rw [reported, mem_complaints_readExtras]
      constructor
      · exact .keys
      · intro hill
        cases hill with
        | keys hill => exact hill

end

theorem wellShaped_iff_exists_read {fragment : Fragment}
    (hplain : fragment.toValue.IsPlain) :
    (∃ resource, read fragment = .ok resource) ↔ WellShaped fragment := by
  rw [exists_ok_iff (complains_read fragment), complaints_read hplain,
    List.flatMap_eq_nil_iff, wellShaped_iff]
  refine forall₂_congr fun field _ => ?_
  simp only [List.eq_nil_iff_forall_not_mem, mem_reported_iff hplain]

/-- A fragment without bytes and without a container inside itself becomes a
resource exactly if it is well-shaped. If not, what is reported is what is wrong
with it, field by field. -/
theorem ofFragment_reports {fragment : Fragment}
    (hplain : fragment.toValue.IsPlain) (hshort : hasTooLong fragment = false)
    (fileName : String) :
    ((∃ resource, ofFragment fragment fileName = .ok resource) ↔
      WellShaped fragment) ∧
      (¬WellShaped fragment → ∃ reports : Field → List Complaint,
        ofFragment fragment fileName = .error (.failure (.invalidSyntax fileName
          (Complaint.summary (Field.all.flatMap reports)))) ∧
        ∀ field ∈ Field.all, ∀ complaint,
          complaint ∈ reports field ↔ Ill fragment field complaint) := by
  rw [← wellShaped_iff_exists_read hplain]
  cases houtcome : read fragment with
  | ok resource => simp [ofFragment, hshort, houtcome]
  | error found =>
      have hfound : found = Field.all.flatMap (reported fragment) := by
        rw [← complaints_read hplain, houtcome, complaints]
      have herror : ofFragment fragment fileName =
          .error
            (.failure
              (.invalidSyntax fileName
                (Complaint.summary
                  (Field.all.flatMap (reported fragment))))) := by
        simp only [ofFragment, hshort, houtcome, Bool.false_eq_true,
          if_false, hfound]
      refine ⟨by simp [herror], fun _ => ⟨reported fragment, herror, ?_⟩⟩
      exact fun field _ complaint => mem_reported_iff hplain

/-- A fragment that is ill-shaped in several places. -/
def mixedFragment : Fragment :=
  ⟨none, [(.text "apiVersion", .scalar (.int 5)), (.text "kind", .text "Pod"),
    (.text "metadata", .mapping none
      [(.text "labels", .mapping none
        [(.text "a", .null), (.bool true, .text "x"),
          (.text "n", .scalar (.int 1))]),
       (.text "name", .list none []), (.int 7, .text "x")]),
    (.null, .text "x")]⟩

/-- The cause that is reported when the syntax is. -/
def reportedCause? : Except Problem Resource → Option String
  | .error (.failure (.invalidSyntax _ cause)) => some cause
  | _ => none

/-- All that is wrong is told; the number among the labels is not. -/
theorem ofFragment_reports_mixed :
    mixedFragment.toValue.IsPlain ∧ hasTooLong mixedFragment = false ∧
      ¬WellShaped mixedFragment ∧ ∃ reports : Field → List Complaint,
        ofFragment mixedFragment "a-pod.yaml" =
          .error
            (.failure (.invalidSyntax "a-pod.yaml"
              (Complaint.summary (Field.all.flatMap reports)))) ∧
        ⟨["metadata", "labels", "1", "[key]"], notText⟩ ∈
          reports (.texts "labels") ∧
        Complaint.summary (Field.all.flatMap reports) =
          "apiVersion: Input should be a valid string; " ++
          "metadata.name: Input should be a valid string; " ++
          "metadata.labels.a: Input should be a valid string; " ++
          "metadata.labels.1.[key]: Input should be a valid string; " ++
          "metadata.7: Keys should be strings; " ++
          "None: Keys should be strings" := by
  have hplain : mixedFragment.toValue.IsPlain := by
    simp [mixedFragment, Fragment.toValue, Value.text, Value.null]
  have hshort : hasTooLong mixedFragment = false := by decide +kernel
  have hill : ¬WellShaped mixedFragment := by
    intro hshaped
    have hversion : Value.IsTextField false (some (.scalar (.int 5))) :=
      hshaped.version
    cases hversion with
    | given htext => cases htext
  obtain ⟨-, hreports⟩ := ofFragment_reports hplain hshort "a-pod.yaml"
  obtain ⟨reports, hreport, hmem⟩ := hreports hill
  have hcause : reportedCause? (ofFragment mixedFragment "a-pod.yaml") = some
      ("apiVersion: Input should be a valid string; " ++
        "metadata.name: Input should be a valid string; " ++
        "metadata.labels.a: Input should be a valid string; " ++
        "metadata.labels.1.[key]: Input should be a valid string; " ++
        "metadata.7: Keys should be strings; " ++
        "None: Keys should be strings") := by
    decide +kernel
  rw [hreport] at hcause
  refine ⟨hplain, hshort, hill, reports, hreport, ?_, Option.some.inj hcause⟩
  refine (hmem _ (by decide) _).mpr (.texts rfl ?_)
  exact .key rfl (List.mem_cons_of_mem _ List.mem_cons_self) id

def shortVersioned : Fragment :=
  ⟨none, [(.text "api_version", .scalar (.int 5)), (.text "kind", .text "Pod")]⟩

def numbered (name : Int) : Fragment :=
  ⟨none, [(.text "kind", .text "Pod"),
    (.text "metadata", .mapping none [(.text "name", .scalar (.int name))])]⟩

theorem wellShaped_numbered (name : Int) : WellShaped (numbered name) where
  keys := by simp [HasTextKeys, numbered]
  version := .absent
  kind := ⟨"Pod", rfl⟩
  metadata := .inr ⟨none, _, rfl, {
    keys := by simp [HasTextKeys]
    name := .given rfl
    namespace_ := .absent
    labels := .absent
    annotations := .absent }⟩
  shortVersion := fun _ => .absent

theorem isPlain_numbered (name : Int) : (numbered name).toValue.IsPlain := by
  simp [numbered, Fragment.toValue, Value.text]

/-- The shape of the fields that a fragment names is not all: the short form of
the version is a field as well, and a number may have no text. -/
theorem not_forall_ofFragment_shaped :
    (¬∀ (fragment : Fragment) (fileName : String), fragment.toValue.IsPlain →
      ((∃ resource, ofFragment fragment fileName = .ok resource) ↔
        Shaped fragment)) ∧
      shortVersioned.toValue.IsPlain ∧ Shaped shortVersioned ∧
      (∀ resource, ofFragment shortVersioned "a-pod.yaml" ≠ .ok resource) ∧
      (numbered (16 ^ 3572)).toValue.IsPlain ∧
        WellShaped (numbered (16 ^ 3572)) ∧
      ofFragment (numbered (16 ^ 3572)) "a-pod.yaml" =
        .error (.fault Number.tooLongToWrite) := by
  have hplain : shortVersioned.toValue.IsPlain := by
    simp [shortVersioned, Fragment.toValue, Value.text]
  have hshaped : Shaped shortVersioned := {
    keys := by simp [HasTextKeys, shortVersioned]
    version := .absent
    kind := ⟨"Pod", rfl⟩
    metadata := .inl rfl }
  have hrejected :
      ∀ resource, ofFragment shortVersioned "a-pod.yaml" ≠ .ok resource := by
    intro resource hresource
    cases hresource
  have hlong : hasTooLong (numbered (16 ^ 3572)) = true := by decide +kernel
  refine ⟨fun hall => ?_, hplain, hshaped, hrejected, isPlain_numbered _,
    wellShaped_numbered _, ?_⟩
  · obtain ⟨resource, hresource⟩ :=
      (hall shortVersioned "a-pod.yaml" hplain).mpr hshaped
    exact hrejected resource hresource
  · rw [ofFragment, if_pos hlong]

end Resource

end Fragments
