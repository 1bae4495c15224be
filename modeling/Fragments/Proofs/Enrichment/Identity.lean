import Fragments.Enrichment
import Fragments.Proofs.Data.Sharing

namespace Fragments

namespace FileName

/-- The kind that a file name gives: that of its type, or that of the whole name
without one. -/
def kindIn? (file : FileName) (registry : Registry) : Option String :=
  registry.kindOf? (file.typeToken.getD file.name)

/-- Whether the name of the file serves as its type. -/
def isTypeIn (file : FileName) (registry : Registry) : Bool :=
  file.typeToken.isNone && (registry.kindOf? file.name).isSome

/-- The name of the resource: that of the file unless it is blank or a type,
else `appName`. -/
def nameIn (file : FileName) (appName : String)
    (registry : Registry) : String :=
  if Text.isBlankText file.name || file.isTypeIn registry then appName
  else file.name

end FileName

namespace Fragment

def put (key : String) (value : Option Value) (fragment : Fragment) :
    Fragment :=
  match value with
  | some value => fragment.assign key value
  | none => fragment

/-- The kind that is declared, or the one of the file name. -/
def settledKind (fragment : Fragment) (file : FileName) (registry : Registry) :
    Option Value :=
  (fragment.present? "kind").or ((file.kindIn? registry).map .text)

/-- The version that is declared, or the one for the kind; none for a kind that
is no text. -/
def settledVersion (fragment : Fragment) (versioning : Versioning)
    (kind : Option Value) :
    Option Value :=
  (fragment.present? "apiVersion").or
    (match kind with
    | some (.scalar (.text kind)) => some (versioning.forKind kind)
    | _ => none)

/-- The entries with the name that they declare, or else with this one. -/
def named (name : String) (entries : List (Scalar × Value)) :
    List (Scalar × Value) :=
  Value.assign "name"
    ((Value.present? entries "name").getD (.text name)) entries

/-- The metadata that is declared, or an empty mapping, with its name. -/
def settledMetadata (fragment : Fragment) (name : String) : Value :=
  match fragment.present? "metadata" with
  | some (.mapping label entries) => .mapping label (named name entries)
  | _ => .mapping none (named name [])

/-- The fragment with all of its identity. -/
def settled (fragment : Fragment) (file : FileName) (appName : String)
    (versioning : Versioning) (registry : Registry) : Fragment :=
  let kind := fragment.settledKind file registry
  ((fragment.put "kind" kind).put "apiVersion"
    (fragment.settledVersion versioning kind)).assign
    "metadata" (fragment.settledMetadata (file.nameIn appName registry))

theorem present?_assign_of_ne {key other : String} (hne : key ≠ other)
    (value : Value) (fragment : Fragment) :
    (fragment.assign key value).present? other = fragment.present? other :=
  Value.present?_assign_of_ne hne value fragment.entries

theorem present?_put_of_ne {key other : String} (hne : key ≠ other)
    (value : Option Value) (fragment : Fragment) :
    (fragment.put key value).present? other = fragment.present? other := by
  cases value with
  | none => rfl
  | some value => exact present?_assign_of_ne hne value fragment

theorem put_present? {key : String} {value : Value} {fragment : Fragment}
    (hpresent : fragment.present? key = some value) :
    fragment.put key (some value) = fragment := by
  have hfield := Value.field?_of_present?_eq_some hpresent
  simp only [put, Fragment.assign, Value.assign_of_field?_eq hfield]

theorem present?_put_text {key : String} (text : Option String)
    (fragment : Fragment) :
    (fragment.put key ((fragment.present? key).or (text.map .text))).present?
      key =
      (fragment.present? key).or (text.map .text) := by
  cases hpresent : fragment.present? key with
  | some value => rw [Option.some_or, put_present? hpresent, hpresent]
  | none =>
      cases text with
      | none => exact hpresent
      | some text =>
          simp [put, Fragment.present?, Fragment.assign, Value.present?,
            Value.text]

theorem assign_assign (key : String) (first second : Value)
    (fragment : Fragment) :
    (fragment.assign key first).assign key second =
      fragment.assign key second := by
  simp only [Fragment.assign, Value.assign_assign]

end Fragment

namespace Enrichment

theorem kindOfFileName_eq_ok {context : Context} {kind : Option String}
    (hkind : kindOfFileName context = .ok kind) :
    (∃ token, context.typeToken = some token ∧
      kind = context.registry.kindOf? token) ∨
      (context.typeToken = none ∧
        kind = context.name.bind context.registry.kindOf?) := by
  unfold kindOfFileName at hkind
  split at hkind
  · next token htoken =>
      split at hkind
      · next found hfound =>
          cases hkind
          exact Or.inl ⟨token, htoken, hfound.symm⟩
      · cases hkind
  · next htoken =>
      cases hkind
      exact Or.inr ⟨htoken, rfl⟩

theorem enrichKind_eq {state after : State}
    (hdone : enrichKind state = (after, none)) :
    ∃ kind, kindOfFileName state.context = .ok kind ∧
      after.context = settleName state.context kind ∧
      ((state.fragment.present? "kind").or (kind.map .text)).isSome ∧
      after.fragment =
        state.fragment.put "kind"
          ((state.fragment.present? "kind").or (kind.map .text)) := by
  unfold enrichKind at hdone
  split at hdone
  · cases hdone
  · next kind hkind =>
      refine ⟨kind, hkind, ?_⟩
      split at hdone
      · cases hdone
      · next hpresent =>
          cases hdone
          simp [hpresent, Fragment.put]
      · next declared hpresent =>
          cases hdone
          simp [hpresent, Fragment.put_present? hpresent]
      · next declared hpresent =>
          split at hdone
          · cases hdone
            simp [hpresent, Fragment.put_present? hpresent]
          · cases hdone

theorem enrichApiVersion_eq {state : State}
    (hversion : ∀ kind, state.context.versioning.forKind kind ≠ .null) :
    enrichApiVersion state =
      { state with
        fragment := state.fragment.put "apiVersion"
          (state.fragment.settledVersion state.context.versioning
            (state.fragment.present? "kind")) } := by
  unfold enrichApiVersion Fragment.settledVersion
  split
  · next kind hnone hkind =>
      rw [hnone, hkind]
      split
      · next hnull => exact absurd hnull (hversion kind)
      · rfl
  · next hother =>
      cases hpresent : state.fragment.present? "apiVersion" with
      | some version => simp [Fragment.put_present? hpresent]
      | none =>
          cases hkind : state.fragment.present? "kind" with
          | none => rfl
          | some kind =>
              have hnotText : ∀ text, kind ≠ .scalar (.text text) := by
                intro text heq
                exact hother text hpresent (heq ▸ hkind)
              rw [Option.none_or]
              split
              · next text heq =>
                  exact absurd (Option.some.inj heq) (hnotText text)
              · rfl

theorem enrichName_eq {state after : State}
    (hdone : enrichName state = (after, none)) (howned : ∀ label entries,
      state.fragment.present? "metadata" = some (.mapping label entries) →
        label = none)
    (hback : ∀ label, state.fragment.present? "metadata" ≠ some (.back label)) :
    after.fragment =
      state.fragment.assign "metadata"
        (state.fragment.settledMetadata (resourceName state.context)) := by
  unfold Fragment.settledMetadata
  cases hmetadata : state.fragment.present? "metadata" with
  | none =>
      have hempty :
          (state.fragment.assign "metadata" (.mapping none [])).present?
            "metadata" =
          some (.mapping none []) := by
        simp [Fragment.present?, Fragment.assign, Value.present?]
      simp only [enrichName, withMetadata, hmetadata, metadataEntries, hempty,
        changeMetadata, Fragment.assign_assign] at hdone
      cases hdone
      rfl
  | some metadata =>
      have hfield := Value.field?_of_present?_eq_some hmetadata
      cases metadata with
      | mapping label entries =>
          cases howned label entries hmetadata
          simp only [enrichName, withMetadata, hmetadata, metadataEntries,
            changeMetadata] at hdone
          split at hdone
          · next declared hname =>
              cases hdone
              simp only [hname, Fragment.named, Option.getD_some,
                Fragment.assign,
                Value.assign_of_field?_eq
                  (Value.field?_of_present?_eq_some hname),
                  Value.assign_of_field?_eq hfield]
          · next hname =>
              cases hdone
              simp only [hname, Fragment.named, Option.getD_none]
      | back label => exact absurd hmetadata (hback label)
      | scalar _ | list _ _ | set _ _ | pair _ _ =>
          simp [enrichName, withMetadata, hmetadata] at hdone

theorem run_cons_eq {enricher : Enricher} {rest : List Enricher}
    {state after : State}
    (hdone : run (enricher :: rest) state = (after, none)) :
    ∃ middle, apply enricher state = (middle, none) ∧
      run rest middle = (after, none) := by
  unfold run at hdone
  split at hdone
  · next middle happly => exact ⟨middle, happly, hdone⟩
  · cases hdone

theorem exists_kinded_of_chain {state last : State}
    (hdone : run Enricher.chain state = (last, none)) :
    ∃ kinded, enrichKind state = (kinded, none) ∧
      enrichName (enrichApiVersion kinded) = (last, none) := by
  obtain ⟨kinded, hfirst, hrest⟩ := run_cons_eq hdone
  obtain ⟨versioned, hsecond, hrest⟩ := run_cons_eq hrest
  obtain ⟨named, hthird, hlast⟩ := run_cons_eq hrest
  cases hsecond
  cases hlast
  exact ⟨kinded, hfirst, hthird⟩

theorem exists_kinded_of_enrich {fragment : Fragment} {file : FileName}
    {appName : String} {versioning : Versioning} {registry : Registry}
    (hdone : (enrich fragment file appName versioning registry).2 = none) :
    ∃ kinded named,
      enrichKind ⟨fragment, context file appName versioning registry⟩ =
        (kinded, none) ∧
      enrichName (enrichApiVersion kinded) = (named, none) ∧
      (enrich fragment file appName versioning registry).1 =
        named.fragment := by
  unfold enrich at hdone ⊢
  cases hrun : run Enricher.chain
    ⟨fragment, context file appName versioning registry⟩ with
  | mk last problem =>
      rw [hrun] at hdone
      obtain rfl : problem = none := hdone
      obtain ⟨kinded, hfirst, hthird⟩ := exists_kinded_of_chain hrun
      exact ⟨kinded, last, hfirst, hthird, rfl⟩

theorem resourceName_settleName {file : FileName} {appName : String}
    {versioning : Versioning} {registry : Registry} {kind : Option String}
    (hkind : kindOfFileName (context file appName versioning registry) =
      .ok kind) :
    resourceName (settleName (context file appName versioning registry) kind) =
      file.nameIn appName registry := by
  unfold FileName.nameIn FileName.isTypeIn
  rcases kindOfFileName_eq_ok hkind with ⟨token, htoken, -⟩ | ⟨htoken, rfl⟩
  · have htoken : file.typeToken = some token := htoken
    simp [settleName, context, resourceName, htoken]
  · have htoken : file.typeToken = none := htoken
    cases hfound : registry.kindOf? file.name with
    | none => simp [settleName, context, resourceName, htoken, hfound]
    | some kind => simp [settleName, context, resourceName, htoken, hfound]

theorem settleName_versioning (context : Context) (kind : Option String) :
    (settleName context kind).versioning = context.versioning := by
  unfold settleName
  split <;> rfl

theorem kind_eq_kindIn? {file : FileName} {appName : String}
    {versioning : Versioning} {registry : Registry} {kind : Option String}
    (hkind : kindOfFileName (context file appName versioning registry) =
      .ok kind) :
    kind = file.kindIn? registry := by
  unfold FileName.kindIn?
  rcases kindOfFileName_eq_ok hkind with ⟨token, htoken, rfl⟩ | ⟨htoken, rfl⟩
  · have htoken : file.typeToken = some token := htoken
    rw [htoken]
    rfl
  · have htoken : file.typeToken = none := htoken
    rw [htoken]
    rfl

end Enrichment

namespace Fragment

theorem IsTree.not_shared {fragment : Fragment} (htree : fragment.IsTree)
    {key : String} {value : Value}
    (hpresent : fragment.present? key = some value) : value.labels = [] := by
  have hentries : Value.labelsOfEntries fragment.entries = [] :=
    (List.append_eq_nil_iff.mp htree).2
  have hsubset := Value.labels_subset_of_mem
    (Value.mem_of_field?_eq_some (Value.field?_of_present?_eq_some hpresent))
  rw [hentries] at hsubset
  exact List.subset_nil.mp hsubset

end Fragment

namespace Enrichment

theorem settledVersion_congr {fragment other : Fragment}
    (hpresent : fragment.present? "apiVersion" = other.present? "apiVersion")
    (versioning : Versioning) (kind : Option Value) :
    fragment.settledVersion versioning kind =
      other.settledVersion versioning kind := by
  unfold Fragment.settledVersion
  rw [hpresent]

theorem settledMetadata_congr {fragment other : Fragment}
    (hpresent : fragment.present? "metadata" = other.present? "metadata")
    (name : String) :
    fragment.settledMetadata name = other.settledMetadata name := by
  unfold Fragment.settledMetadata
  rw [hpresent]

section

variable {fragment : Fragment} {file : FileName} {appName : String}
  {versioning : Versioning} {registry : Registry}

theorem enrichApiVersion_enrichKind {kinded : State}
    (hversion : ∀ kind, versioning.forKind kind ≠ .null)
    (hdone : enrichKind ⟨fragment, context file appName versioning registry⟩ =
      (kinded, none)) :
    (fragment.settledKind file registry).isSome ∧
      kindOfFileName (context file appName versioning registry) =
        .ok (file.kindIn? registry) ∧
      enrichApiVersion kinded =
        { fragment :=
            (fragment.put "kind" (fragment.settledKind file registry)).put
              "apiVersion" (fragment.settledVersion versioning
                (fragment.settledKind file registry))
          context :=
            settleName (context file appName versioning registry)
              (file.kindIn? registry) } := by
  obtain ⟨kind, hkind, hcontext, hsome, hfragment⟩ := enrichKind_eq hdone
  have hgiven := kind_eq_kindIn? hkind
  subst hgiven
  obtain ⟨kindedFragment, kindedContext⟩ := kinded
  have hfragment :
      kindedFragment =
        fragment.put "kind" (fragment.settledKind file registry) := hfragment
  have hcontext : kindedContext =
      settleName (context file appName versioning registry)
        (file.kindIn? registry) := hcontext
  subst hfragment hcontext
  have hpresent :
      (fragment.put "kind" (fragment.settledKind file registry)).present?
        "kind" =
        fragment.settledKind file registry :=
    Fragment.present?_put_text (file.kindIn? registry) fragment
  have hapiVersion :
      (fragment.put "kind" (fragment.settledKind file registry)).present?
        "apiVersion" =
        fragment.present? "apiVersion" :=
    Fragment.present?_put_of_ne (by decide)
      (fragment.settledKind file registry) fragment
  refine ⟨hsome, hkind, ?_⟩
  rw [enrichApiVersion_eq (by rw [settleName_versioning]; exact hversion)]
  simp only [settleName_versioning, hpresent, settledVersion_congr hapiVersion]
  rfl

/-- Enriching a fragment without sharing leaves exactly the settled fragment:
every declared field is kept, the others are filled in, and everything else
stays as and where it is. -/
theorem enrich_eq_settled (htree : fragment.IsTree)
    (hversion : ∀ kind, versioning.forKind kind ≠ .null)
    (hdone : (enrich fragment file appName versioning registry).2 = none) :
    (fragment.settledKind file registry).isSome ∧
      (enrich fragment file appName versioning registry).1 =
        fragment.settled file appName versioning registry := by
  obtain ⟨kinded, named, hfirst, hthird, hlast⟩ := exists_kinded_of_enrich hdone
  obtain ⟨hsome, hkind, hversioned⟩ :=
    enrichApiVersion_enrichKind hversion hfirst
  rw [hversioned] at hthird
  have hmetadata :
      ((fragment.put "kind" (fragment.settledKind file registry)).put
        "apiVersion"
          (fragment.settledVersion versioning
            (fragment.settledKind file registry))).present? "metadata" =
        fragment.present? "metadata" := by
    rw [Fragment.present?_put_of_ne (by decide),
      Fragment.present?_put_of_ne (by decide)]
  -- The metadata stand in one place only, so naming them is assigning them.
  have hnamed := enrichName_eq hthird
    (fun label entries hmapping => by
      have hlabels := htree.not_shared (hmetadata ▸ hmapping)
      simpa [Value.labels] using (List.append_eq_nil_iff.mp hlabels).1)
    (fun label hback => by
      have hlabels := htree.not_shared (hmetadata ▸ hback)
      simp [Value.labels] at hlabels)
  refine ⟨hsome, ?_⟩
  rw [hlast, hnamed, settledMetadata_congr hmetadata,
    resourceName_settleName hkind]
  rfl

end

/-- A null kind is filled in where it stands, a declared label stays, and the
name comes from the file. -/
theorem enrich_eq_settled_service :
    let fragment : Fragment :=
      ⟨none, [(.text "kind", .null), (.text "spec", .list none [.null]),
        (.text "metadata", .mapping none [(.text "labels", .mapping none [])])]⟩
    let file : FileName := ⟨"shop-svc.yaml", "shop", some "svc", "yaml"⟩
    let registry := Registry.empty.addAll [⟨"Service", ["svc"]⟩]
    FileName.parse? "shop-svc.yaml" = some file ∧ fragment.IsTree ∧
      (∀ kind, Versioning.standard.forKind kind ≠ .null) ∧
      (enrich fragment file "app" Versioning.standard registry).2 = none ∧
      (enrich fragment file "app" Versioning.standard registry).1 =
        ⟨none, [(.text "kind", .text "Service"),
          (.text "spec", .list none [.null]), (.text "metadata",
            .mapping none [(.text "labels", .mapping none []),
              (.text "name", .text "shop")]),
          (.text "apiVersion", .text "v1")]⟩ := by
  intro fragment file registry
  have htree : fragment.IsTree := rfl
  have hversion : ∀ kind, Versioning.standard.forKind kind ≠ .null :=
    fun _ hnull => by cases hnull
  have hdone : (enrich fragment file "app" Versioning.standard registry).2 =
      none := by
    decide +kernel
  have hkind : file.kindIn? registry = some "Service" := by decide +kernel
  have hname : file.nameIn "app" registry = "shop" := by decide +kernel
  have hsettled := (enrich_eq_settled htree hversion hdone).2
  simp only [Fragment.settled, Fragment.settledKind, hkind, hname] at hsettled
  exact ⟨by decide +kernel, htree, hversion, hdone, hsettled.trans rfl⟩

end Enrichment

end Fragments
