import Fragments.Proofs.Enrichment.Steps
import Fragments.Proofs.Mapping.Readers

namespace Fragments

namespace Fragment

/-- Whether neither the file name nor the fragment tells the kind. -/
structure LacksKind (fragment : Fragment) (file : FileName)
    (registry : Registry) : Prop where
  typeToken : file.typeToken = none
  name : registry.kindOf? file.name = none
  declared : fragment.present? "kind" = none

/-- Whether the kind that the fragment declares beside the one of the file name
cannot be shown for an integer of too many digits in it. -/
structure HidesKind (fragment : Fragment) (file : FileName)
    (registry : Registry) : Prop where
  given : (file.kindIn? registry).isSome
  declared : ∃ declared, fragment.present? "kind" = some declared ∧
    declared.HasLong

/-- Whether a kind is found for the fragment. -/
structure Identifiable (fragment : Fragment) (file : FileName)
    (registry : Registry) : Prop where
  known : file.HasKnownType registry
  kind : ¬fragment.LacksKind file registry
  shown : ¬fragment.HidesKind file registry

section

variable (fragment : Fragment) (file : FileName) (versioning : Versioning)
  (registry : Registry)

/-- The version that is known for the kind which the fragment ends up with. -/
def identifiedVersion : Option Value :=
  fragment.knownVersion versioning (fragment.settledKind file registry)

theorem identified_eq :
    fragment.identified file versioning registry =
      (fragment.put "kind" (fragment.settledKind file registry)).put
        "apiVersion" (fragment.identifiedVersion file versioning registry) := by
  have hkind :
      (fragment.put "kind" (fragment.settledKind file registry)).present?
        "kind" =
      fragment.settledKind file registry :=
    present?_put_text (file.kindIn? registry) fragment
  rw [identified, versioned, hkind, identifiedVersion,
    knownVersion_congr (present?_put_of_ne (by decide) _ fragment)]

theorem field?_identified_kind :
    Value.field? (fragment.identified file versioning registry).entries "kind" =
      (fragment.settledKind file registry).or
        (Value.field? fragment.entries "kind") := by
  rw [identified_eq, field?_put_of_ne (by decide), field?_put_self]

theorem field?_identified_apiVersion :
    Value.field? (fragment.identified file versioning registry).entries
      "apiVersion" =
      (fragment.identifiedVersion file versioning registry).or
        (Value.field? fragment.entries "apiVersion") := by
  rw [identified_eq, field?_put_self, field?_put_of_ne (by decide)]

theorem present?_identified_metadata :
    (fragment.identified file versioning registry).present? "metadata" =
      fragment.present? "metadata" := by
  rw [identified_eq, present?_put_of_ne (by decide),
    present?_put_of_ne (by decide)]

end

theorem get?_put_ne {key : String} {value : Option Value} {fragment : Fragment}
    (hkept : ∀ held, fragment.present? key = some held → value = some held)
    {other : Scalar}
    (hchanged : Entries.get? (fragment.put key value).entries other ≠
      Entries.get? fragment.entries other) :
    other = .text key ∧ fragment.present? key = none := by
  cases hpresent : fragment.present? key with
  | some held =>
      rw [hkept held hpresent, put_present? hpresent] at hchanged
      exact absurd rfl hchanged
  | none =>
      refine ⟨Classical.byContradiction fun hother => hchanged ?_, rfl⟩
      cases value with
      | none => rfl
      | some value =>
          exact Entries.get?_assign_of_ne (Ne.symm hother) value
            fragment.entries

theorem get?_identified_ne {fragment : Fragment} {file : FileName}
    {versioning : Versioning} {registry : Registry} {key : Scalar}
    (hchanged : Entries.get?
      (fragment.identified file versioning registry).entries key ≠
      Entries.get? fragment.entries key) :
    ∃ name ∈ ["kind", "apiVersion"], key = .text name ∧
      fragment.present? name = none := by
  rw [identified_eq] at hchanged
  by_cases hkind :
    Entries.get?
      (fragment.put "kind" (fragment.settledKind file registry)).entries key =
        Entries.get? fragment.entries key
  · rw [← hkind] at hchanged
    have hsame :
        (fragment.put "kind" (fragment.settledKind file registry)).present?
          "apiVersion" =
        fragment.present? "apiVersion" :=
      present?_put_of_ne (by decide) _ fragment
    have hfilled := get?_put_ne (fun held hheld => by
      rw [hsame] at hheld
      exact knownVersion_of_present hheld versioning _) hchanged
    rw [hsame] at hfilled
    exact ⟨"apiVersion", by simp, hfilled⟩
  · have hfilled := get?_put_ne (fun held hheld => by
      rw [settledKind, hheld, Option.some_or]) hkind
    exact ⟨"kind", by simp, hfilled⟩

theorem field?_identified_assign {fragment : Fragment} {file : FileName}
    {versioning : Versioning} {registry : Registry} {name : String}
    (hname : name ∈ ["kind", "apiVersion"]) (value : Value) :
    Value.field? ((fragment.assign "metadata" value).identified file versioning
      registry).entries
        name =
      Value.field? (fragment.identified file versioning registry).entries
        name := by
  have hkind : (fragment.assign "metadata" value).settledKind file registry =
      fragment.settledKind file registry := by
    rw [settledKind, settledKind, present?_assign_of_ne (by decide)]
  have hversion :
      (fragment.assign "metadata" value).identifiedVersion file
        versioning registry =
      fragment.identifiedVersion file versioning registry := by
    rw [identifiedVersion, identifiedVersion, hkind,
      knownVersion_congr (present?_assign_of_ne (by decide) value fragment)]
  simp only [List.mem_cons, List.not_mem_nil, or_false] at hname
  rcases hname with rfl | rfl
  · rw [field?_identified_kind, field?_identified_kind, hkind,
      field?_assign_of_ne (by decide)]
  · rw [field?_identified_apiVersion, field?_identified_apiVersion, hversion,
      field?_assign_of_ne (by decide)]

theorem Identifiable.assign {fragment : Fragment} {file : FileName}
    {registry : Registry} (hfound : fragment.Identifiable file registry)
    {key : String} (hkey : key ≠ "kind") (value : Value) :
    (fragment.assign key value).Identifiable file registry where
  known := hfound.known
  kind hlacks := hfound.kind
    ⟨hlacks.typeToken, hlacks.name, present?_assign_of_ne hkey value fragment ▸
      hlacks.declared⟩
  shown hhides := hfound.shown
    ⟨hhides.given, present?_assign_of_ne hkey value fragment ▸ hhides.declared⟩

end Fragment

namespace Enrichment

section

variable {fragment : Fragment} {file : FileName} {registry : Registry}
  (appName : String) (versioning : Versioning)

theorem enrich_of_enrichKind {appName : String} {versioning : Versioning}
    {after : State} {problem : Problem}
    (hkind : enrichKind ⟨fragment, context file appName versioning registry⟩ =
      (after, some problem)) :
    enrich fragment file appName versioning registry =
      (after.fragment, some problem) := by
  simp only [enrich, Enricher.chain, run, apply, hkind]

theorem enrich_of_unknownType {token : String}
    (htoken : file.typeToken = some token)
    (hkind : registry.kindOf? token = none) :
    enrich fragment file appName versioning registry =
      (fragment,
        some (.failure
          (.unknownType token file.fileName registry.knownTokens))) := by
  have hgiven : kindOfFileName (context file appName versioning registry) =
      .error
        (.failure (.unknownType token file.fileName registry.knownTokens)) := by
    simp only [kindOfFileName, context, htoken, hkind]
  exact enrich_of_enrichKind (enrichKind_of_error hgiven)

theorem enrich_of_lacksKind (hlacks : fragment.LacksKind file registry) :
    enrich fragment file appName versioning registry =
      (fragment, some (.failure (.missingKind file.fileName))) := by
  have hgiven : kindOfFileName (context file appName versioning registry) =
      .ok none := by
    simp only [kindOfFileName, context, hlacks.typeToken, Option.bind_some,
      hlacks.name]
  exact enrich_of_enrichKind (enrichKind_of_missing hgiven hlacks.declared)

theorem kindOfFileName_eq_kindIn? (hknown : file.HasKnownType registry) :
    kindOfFileName (context file appName versioning registry) =
      .ok (file.kindIn? registry) := by
  obtain ⟨kind, hkind⟩ := kindOfFileName_of_known hknown appName versioning
  rw [hkind, kind_eq_kindIn? hkind]

theorem enrich_of_hidesKind (hknown : file.HasKnownType registry)
    (hhides : fragment.HidesKind file registry) :
    enrich fragment file appName versioning registry =
      (fragment, some (.fault Number.tooLongToWrite)) := by
  obtain ⟨kind, hkind⟩ := Option.isSome_iff_exists.mp hhides.given
  obtain ⟨declared, hdeclared, hlong⟩ := hhides.declared
  have hgiven := kindOfFileName_eq_kindIn? appName versioning hknown
  rw [hkind] at hgiven
  exact enrich_of_enrichKind
    (enrichKind_of_unshown hgiven hdeclared
      (Value.display_eq_tooLong_iff.mpr hlong))

theorem isSome_settledKind (hfound : fragment.Identifiable file registry) :
    (fragment.settledKind file registry).isSome := by
  rw [Option.isSome_iff_ne_none, ne_eq, Fragment.settledKind,
    Option.or_eq_none_iff, Option.map_eq_none_iff]
  rintro ⟨hdeclared, hgiven⟩
  cases htoken : file.typeToken with
  | none =>
      rw [FileName.kindIn?, htoken] at hgiven
      exact hfound.kind ⟨htoken, hgiven, hdeclared⟩
  | some token =>
      have hknown := hfound.known token htoken
      rw [FileName.kindIn?, htoken, Option.getD_some] at hgiven
      rw [hgiven] at hknown
      cases hknown

theorem enrich_of_identifiable (hfound : fragment.Identifiable file registry) :
    ∃ context : Context, context.fileName = file.fileName ∧
      ∀ after problem,
        enrichName ⟨fragment.identified file versioning registry, context⟩ =
          (after, problem) →
          enrich fragment file appName versioning registry =
            (after.fragment, problem) := by
  let settled :=
    settleName (context file appName versioning registry)
      (file.kindIn? registry)
  have hname : settled.fileName = file.fileName := by
    show (settleName _ _).fileName = _
    unfold settleName
    split <;> rfl
  have hkinded :
      enrichKind ⟨fragment, context file appName versioning registry⟩ =
      (⟨fragment.put "kind" (fragment.settledKind file registry), settled⟩,
        none) := by
    refine enrichKind_eq_done_iff.mpr
      ⟨file.kindIn? registry,
        kindOfFileName_eq_kindIn? appName versioning hfound.known,
        isSome_settledKind hfound,
        fun hgiven declared hdeclared hshown => ?_, rfl⟩
    exact hfound.shown
      ⟨hgiven, declared, hdeclared, Value.display_eq_tooLong_iff.mp hshown⟩
  have hversioned := enrichApiVersion_eq_versioned
    ⟨fragment.put "kind" (fragment.settledKind file registry), settled⟩
  rw [show settled.versioning = versioning from settleName_versioning _ _]
    at hversioned
  refine ⟨settled, hname, fun after problem hnamed => ?_⟩
  rw [Fragment.identified] at hnamed
  simp only [enrich, Enricher.chain, run, apply, hkinded, hversioned, hnamed]
  cases problem <;> rfl

theorem enrich_of_malformed (hfound : fragment.Identifiable file registry)
    {metadata : Value}
    (hmetadata : fragment.present? "metadata" = some metadata)
    (hmapping : metadata.isMapping = false) :
    enrich fragment file appName versioning registry =
      (fragment.identified file versioning registry,
        some (.failure
          (.metadataType metadata.typeName (some file.fileName)))) := by
  obtain ⟨context, hname, henrich⟩ :=
    enrich_of_identifiable appName versioning hfound
  rw [← hname]
  refine henrich _ _ (enrichName_of_malformed ?_ hmapping)
  rwa [Fragment.present?_identified_metadata]

theorem enrich_of_mapping (hfound : fragment.Identifiable file registry)
    (hmapping : ∀ metadata, fragment.present? "metadata" = some metadata →
      metadata.isMapping = true) :
    ∃ enriched, enrich fragment file appName versioning registry =
      (enriched, none) := by
  obtain ⟨context, -, henrich⟩ :=
    enrich_of_identifiable appName versioning hfound
  obtain ⟨named, hnamed⟩ :=
    @enrichName_of_mapping
      ⟨fragment.identified file versioning registry, context⟩ (by
        rwa [Fragment.present?_identified_metadata])
  exact ⟨named, henrich _ _ hnamed⟩

theorem enrich_assign_metadata (hfound : fragment.Identifiable file registry)
    (entries : List (Scalar × Value)) :
    ∃ enriched,
      enrich (fragment.assign "metadata" (.mapping none entries)) file appName
        versioning registry =
        (enriched, none) ∧
      ∀ name ∈ ["kind", "apiVersion"], Value.field? enriched.entries name =
        Value.field? (fragment.identified file versioning registry).entries
          name := by
  let whole := fragment.assign "metadata" (.mapping none entries)
  have hkept {name : String} (hname : name ∈ ["kind", "apiVersion"]) :
      "metadata" ≠ name := by
    rintro rfl
    exact absurd hname (by decide)
  have hmetadata :
      (whole.identified file versioning registry).present? "metadata" =
      some (.mapping none entries) := by
    have hvalue : some (Value.mapping none entries) ≠
        some (.scalar .null) := nofun
    rw [Fragment.present?_identified_metadata]
    exact Fragment.present?_put_self hvalue
  obtain ⟨context, -, henrich⟩ := enrich_of_identifiable appName versioning
    (hfound.assign (hkept (by simp)) (.mapping none entries))
  refine ⟨_, henrich _ _ (enrichName_of_owned fun metadata hpresent => ?_),
    fun name hname => ?_⟩
  · exact ⟨entries, Option.some.inj (hpresent.symm.trans hmetadata)⟩
  · exact (Fragment.field?_assign_of_ne (hkept hname) _ _).trans
      (Fragment.field?_identified_assign hname _)

theorem exists_of_not_hasKnownType (hunknown : ¬file.HasKnownType registry) :
    ∃ token, file.typeToken = some token ∧ registry.kindOf? token = none := by
  simp only [FileName.HasKnownType, Classical.not_forall] at hunknown
  obtain ⟨token, htoken, hkind⟩ := hunknown
  exact ⟨token, htoken, by simpa using hkind⟩

/-- The five ways in which enrichment ends: the fragment that it leaves and its
problem. -/
inductive Ends (fragment : Fragment) (file : FileName) (versioning : Versioning)
    (registry : Registry) : Fragment → Option Problem → Prop
  | unknownType {token : String} (htoken : file.typeToken = some token)
      (hkind : registry.kindOf? token = none) :
      Ends fragment file versioning registry fragment
        (some (.failure
          (.unknownType token file.fileName registry.knownTokens)))
  | missingKind (hlacks : fragment.LacksKind file registry) :
      Ends fragment file versioning registry fragment
        (some (.failure (.missingKind file.fileName)))
  | unshown (hknown : file.HasKnownType registry)
      (hhides : fragment.HidesKind file registry) :
      Ends fragment file versioning registry fragment
        (some (.fault Number.tooLongToWrite))
  | malformed (hfound : fragment.Identifiable file registry) {metadata : Value}
      (hmetadata : fragment.present? "metadata" = some metadata)
      (hmapping : metadata.isMapping = false) :
      Ends fragment file versioning registry
        (fragment.identified file versioning registry)
        (some (.failure (.metadataType metadata.typeName (some file.fileName))))
  | done (hfound : fragment.Identifiable file registry)
      (hmapping : ∀ metadata, fragment.present? "metadata" = some metadata →
        metadata.isMapping = true) {enriched : Fragment} :
      Ends fragment file versioning registry enriched none

theorem ends_enrich (fragment : Fragment) (file : FileName)
    (registry : Registry) :
    Ends fragment file versioning registry
      (enrich fragment file appName versioning registry).1
        (enrich fragment file appName versioning registry).2 := by
  by_cases hknown : file.HasKnownType registry
  case neg =>
    obtain ⟨token, htoken, hkind⟩ := exists_of_not_hasKnownType hknown
    rw [enrich_of_unknownType appName versioning htoken hkind]
    exact .unknownType htoken hkind
  by_cases hlacks : fragment.LacksKind file registry
  case pos =>
    rw [enrich_of_lacksKind appName versioning hlacks]
    exact .missingKind hlacks
  by_cases hhides : fragment.HidesKind file registry
  case pos =>
    rw [enrich_of_hidesKind appName versioning hknown hhides]
    exact .unshown hknown hhides
  have hfound : fragment.Identifiable file registry := ⟨hknown, hlacks, hhides⟩
  by_cases hmapping : ∀ metadata, fragment.present? "metadata" = some metadata →
      metadata.isMapping = true
  case pos =>
    obtain ⟨enriched, henrich⟩ :=
      enrich_of_mapping appName versioning hfound hmapping
    rw [henrich]
    exact .done hfound hmapping
  simp only [Classical.not_forall, Bool.not_eq_true] at hmapping
  obtain ⟨metadata, hmetadata, hmapping⟩ := hmapping
  rw [enrich_of_malformed appName versioning hfound hmetadata hmapping]
  exact .malformed hfound hmetadata hmapping

variable {appName versioning}

theorem exists_ends {problem : Option Problem}
    (hproblem : (enrich fragment file appName versioning registry).2 =
      problem) :
    ∃ left, Ends fragment file versioning registry left problem :=
  ⟨_, hproblem ▸ ends_enrich appName versioning fragment file registry⟩

theorem enrich_eq_unknownType_iff {token fileName : String}
    {known : List String} :
    (enrich fragment file appName versioning registry).2 =
        some (.failure (.unknownType token fileName known)) ↔
      file.typeToken = some token ∧ registry.kindOf? token = none ∧
        fileName = file.fileName ∧ known = registry.knownTokens := by
  constructor
  · intro hproblem
    obtain ⟨left, hends⟩ := exists_ends hproblem
    cases hends with
    | unknownType htoken hkind => exact ⟨htoken, hkind, rfl, rfl⟩
  · rintro ⟨htoken, hkind, rfl, rfl⟩
    rw [enrich_of_unknownType appName versioning htoken hkind]

theorem enrich_eq_missingKind_iff {fileName : String} :
    (enrich fragment file appName versioning registry).2 =
        some (.failure (.missingKind fileName)) ↔
      fragment.LacksKind file registry ∧ fileName = file.fileName := by
  constructor
  · intro hproblem
    obtain ⟨left, hends⟩ := exists_ends hproblem
    cases hends with
    | missingKind hlacks => exact ⟨hlacks, rfl⟩
  · rintro ⟨hlacks, rfl⟩
    rw [enrich_of_lacksKind appName versioning hlacks]

theorem enrich_eq_metadataType_iff {observed : String}
    {fileName : Option String} :
    (enrich fragment file appName versioning registry).2 =
        some (.failure (.metadataType observed fileName)) ↔
      fragment.Identifiable file registry ∧ (∃ metadata,
        fragment.present? "metadata" = some metadata ∧
          metadata.isMapping = false ∧ observed = metadata.typeName) ∧
        fileName = some file.fileName := by
  constructor
  · intro hproblem
    obtain ⟨left, hends⟩ := exists_ends hproblem
    cases hends with
    | malformed hfound hmetadata hmapping =>
        exact ⟨hfound, ⟨_, hmetadata, hmapping, rfl⟩, rfl⟩
  · rintro ⟨hfound, ⟨metadata, hmetadata, hmapping, rfl⟩, rfl⟩
    rw [enrich_of_malformed appName versioning hfound hmetadata hmapping]

theorem enrich_eq_done_iff :
    (enrich fragment file appName versioning registry).2 = none ↔
      fragment.Identifiable file registry ∧ ∀ metadata,
        fragment.present? "metadata" = some metadata →
          metadata.isMapping = true := by
  constructor
  · intro hproblem
    obtain ⟨left, hends⟩ := exists_ends hproblem
    cases hends with
    | done hfound hmapping => exact ⟨hfound, hmapping⟩
  · rintro ⟨hfound, hmapping⟩
    obtain ⟨enriched, henrich⟩ :=
      enrich_of_mapping appName versioning hfound hmapping
    rw [henrich]

theorem enrich_eq_unshown_iff {fault : Fault} :
    (enrich fragment file appName versioning registry).2 = some (.fault fault) ↔
      file.HasKnownType registry ∧ fragment.HidesKind file registry ∧
        fault = Number.tooLongToWrite := by
  constructor
  · intro hproblem
    obtain ⟨left, hends⟩ := exists_ends hproblem
    cases hends with
    | unshown hknown hhides => exact ⟨hknown, hhides, rfl⟩
  · rintro ⟨hknown, hhides, rfl⟩
    rw [enrich_of_hidesKind appName versioning hknown hhides]

end

/-- Enrichment fails on an unregistered type of the file name, whatever else is
wrong, and lists all tokens in order; else on a kind that nobody gives; else,
but for a declared kind that cannot be shown, on metadata that are neither null
nor a mapping; else it succeeds. The first two leave the fragment as it was. The
third leaves it with the kind and the version that were absent or null filled
in, as they are when the metadata are a mapping. -/
theorem enrich_refusals (fragment : Fragment) (file : FileName)
    (appName : String) (versioning : Versioning) (registry : Registry) :
    let outcome := enrich fragment file appName versioning registry
    (∀ token fileName known,
        outcome.2 = some (.failure (.unknownType token fileName known)) ↔
          file.typeToken = some token ∧ registry.kindOf? token = none ∧
            fileName = file.fileName ∧ known = registry.knownTokens) ∧
      (registry.knownTokens.Perm (registry.kindOfToken.map Prod.fst) ∧
        registry.knownTokens.Pairwise (· ≤ ·)) ∧
      (∀ fileName, outcome.2 = some (.failure (.missingKind fileName)) ↔
        fragment.LacksKind file registry ∧ fileName = file.fileName) ∧
      (∀ fault, outcome.2 = some (.fault fault) ↔
        file.HasKnownType registry ∧ fragment.HidesKind file registry ∧
          fault = Number.tooLongToWrite) ∧
      (∀ observed fileName,
        outcome.2 = some (.failure (.metadataType observed fileName)) ↔
          fragment.Identifiable file registry ∧
          (∃ metadata, fragment.present? "metadata" = some metadata ∧
            metadata.isMapping = false ∧ observed = metadata.typeName) ∧
          fileName = some file.fileName) ∧
      (outcome.2 = none ↔
        fragment.Identifiable file registry ∧
          ∀ metadata, fragment.present? "metadata" = some metadata →
            metadata.isMapping = true) ∧
      (¬fragment.Identifiable file registry → outcome.1 = fragment) ∧
      ∀ observed fileName,
        outcome.2 = some (.failure (.metadataType observed fileName)) →
        outcome.1 = fragment.identified file versioning registry ∧
          (∀ key, Entries.get? outcome.1.entries key ≠
            Entries.get? fragment.entries key →
            ∃ name ∈ ["kind", "apiVersion"], key = .text name ∧
              fragment.present? name = none) ∧
          ∀ entries, ∃ enriched,
            enrich (fragment.assign "metadata" (.mapping none entries)) file
                appName versioning registry =
              (enriched, none) ∧
              ∀ name ∈ ["kind", "apiVersion"],
                Value.field? outcome.1.entries name =
                  Value.field? enriched.entries name := by
  intro outcome
  refine ⟨fun _ _ _ => enrich_eq_unknownType_iff,
    ⟨Registry.knownTokens_perm registry, Text.pairwise_le_mergeSort _⟩,
    fun _ => enrich_eq_missingKind_iff, fun _ => enrich_eq_unshown_iff,
    fun _ _ => enrich_eq_metadataType_iff, enrich_eq_done_iff, fun hlost => ?_,
    fun observed fileName hproblem => ?_⟩
  · have hends := ends_enrich appName versioning fragment file registry
    show (enrich fragment file appName versioning registry).1 = fragment
    generalize (enrich fragment file appName versioning registry).1 =
      left at hends
    generalize (enrich fragment file appName versioning registry).2 =
      problem at hends
    cases hends with
    | unknownType _ _ | missingKind _ | unshown _ _ => rfl
    | malformed hfound _ _ | done hfound _ => exact absurd hfound hlost
  · obtain ⟨hfound, ⟨metadata, hmetadata, hmapping, rfl⟩, rfl⟩ :=
      enrich_eq_metadataType_iff.mp hproblem
    have hleft : outcome.1 = fragment.identified file versioning registry :=
      congrArg Prod.fst
        (enrich_of_malformed appName versioning hfound hmetadata hmapping)
    rw [hleft]
    refine ⟨rfl, fun key => Fragment.get?_identified_ne, fun entries => ?_⟩
    obtain ⟨enriched, henrich, hfields⟩ :=
      enrich_assign_metadata appName versioning hfound entries
    exact ⟨enriched, henrich, fun name hname => (hfields name hname).symm⟩

/-- Metadata that are a list, in a fragment whose kind is null and whose name
has a type: the type is looked up first, and when it is known, kind and version
are filled in before the list is found. -/
theorem enrich_refusals_precedence :
    let fragment : Fragment :=
      ⟨none, [(.text "kind", .null), (.text "metadata", .list none [])]⟩
    let registry := Registry.empty.addAll [⟨"Service", ["svc"]⟩]
    (enrich fragment ⟨"shop-sv.yaml", "shop", some "sv", "yaml"⟩ "app"
      Versioning.standard registry =
        (fragment,
          some (.failure
            (.unknownType "sv" "shop-sv.yaml" registry.knownTokens)))) ∧
      (enrich fragment ⟨"shop.yaml", "shop", none, "yaml"⟩ "app"
        Versioning.standard registry =
        (fragment, some (.failure (.missingKind "shop.yaml")))) ∧
      enrich fragment ⟨"shop-svc.yaml", "shop", some "svc", "yaml"⟩ "app"
        Versioning.standard
          registry =
        (⟨none, [(.text "kind", .text "Service"),
          (.text "metadata", .list none []), (.text "apiVersion", .text "v1")]⟩,
          some (.failure (.metadataType "list" (some "shop-svc.yaml")))) := by
  intro fragment registry
  have hshown (file : FileName) : ¬fragment.HidesKind file registry := by
    rintro ⟨-, declared, hdeclared, -⟩
    cases hdeclared
  refine ⟨?_, ?_, ?_⟩
  · obtain ⟨hunknown, -, -, -, -, -, hkept, -⟩ :=
      enrich_refusals fragment ⟨"shop-sv.yaml", "shop", some "sv", "yaml"⟩ "app"
        Versioning.standard registry
    refine Prod.ext (hkept fun hfound => ?_) ((hunknown _ _ _).mpr
      ⟨rfl, by decide +kernel, rfl, rfl⟩)
    exact absurd (hfound.known "sv" rfl) (by decide +kernel)
  · obtain ⟨-, -, hmissing, -, -, -, hkept, -⟩ :=
      enrich_refusals fragment ⟨"shop.yaml", "shop", none, "yaml"⟩ "app"
        Versioning.standard registry
    have hlacks : fragment.LacksKind ⟨"shop.yaml", "shop", none, "yaml"⟩
        registry :=
      ⟨rfl, by decide +kernel, rfl⟩
    exact Prod.ext (hkept fun hfound => hfound.kind hlacks)
      ((hmissing _).mpr ⟨hlacks, rfl⟩)
  · obtain ⟨-, -, -, -, hmalformed, -, -, hleft⟩ :=
      enrich_refusals fragment
        ⟨"shop-svc.yaml", "shop", some "svc", "yaml"⟩ "app"
          Versioning.standard registry
    have hknown : FileName.HasKnownType
        ⟨"shop-svc.yaml", "shop", some "svc", "yaml"⟩ registry := by
      rintro _ ⟨⟩
      decide +kernel
    have hproblem := (hmalformed "list" (some "shop-svc.yaml")).mpr
      ⟨⟨hknown, fun hlacks => (by cases hlacks.typeToken), hshown _⟩,
        ⟨_, rfl, rfl, rfl⟩, rfl⟩
    refine Prod.ext ((hleft _ _ hproblem).1.trans ?_) hproblem
    rfl

end Enrichment

end Fragments
