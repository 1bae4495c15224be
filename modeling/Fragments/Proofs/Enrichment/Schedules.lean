import Fragments.Proofs.Enrichment.Steps

namespace Fragments

namespace Fragment

def withName (name : String) (fragment : Fragment) : Fragment :=
  fragment.assign "metadata" (fragment.settledMetadata name)

theorem named_named (name : String) (entries : List (Scalar × Value)) :
    named name (named name entries) = named name entries := by
  have hvalue : (Value.present? entries "name").getD (.text name) ≠
      .scalar .null := by
    cases hpresent : Value.present? entries "name" with
    | none => nofun
    | some value =>
        rintro rfl
        exact present?_ne_null ⟨none, entries⟩ "name" hpresent
  have hname : Value.present? (named name entries) "name" =
      some ((Value.present? entries "name").getD (.text name)) := by
    have hsome : some ((Value.present? entries "name").getD (.text name)) ≠
        some (.scalar .null) := fun heq => hvalue (Option.some.inj heq)
    have hput := @present?_put_self "name" _ ⟨none, entries⟩ hsome
    exact hput
  rw [named, hname, Option.getD_some, named, Value.assign_assign]

theorem exists_settledMetadata (fragment : Fragment) (name : String) :
    ∃ label entries, fragment.settledMetadata name = .mapping label
      (named name entries) := by
  unfold settledMetadata
  split
  · exact ⟨_, _, rfl⟩
  · exact ⟨_, _, rfl⟩

theorem present?_withName (name : String) (fragment : Fragment) :
    (fragment.withName name).present? "metadata" =
      some (fragment.settledMetadata name) := by
  obtain ⟨label, entries, hsettled⟩ := fragment.exists_settledMetadata name
  have hmapping : some (fragment.settledMetadata name) ≠
      some (.scalar .null) := by
    rw [hsettled]
    nofun
  exact @present?_put_self "metadata" _ fragment hmapping

theorem versioned_of_versioned {fragment later : Fragment}
    {versioning : Versioning}
    (hkind : later.present? "kind" = fragment.present? "kind")
    (hversion : later.present? "apiVersion" =
      (fragment.versioned versioning).present? "apiVersion") :
    later.versioned versioning = later := by
  rw [versioned, present?_put_self (fragment.knownVersion_ne_null _ _)]
    at hversion
  rw [versioned]
  cases hlater : later.present? "apiVersion" with
  | some version => rw [knownVersion_of_present hlater, put_present? hlater]
  | none =>
      obtain ⟨hknown, hnone⟩ :=
        Option.or_eq_none_iff.mp (hversion.symm.trans hlater)
      rw [hkind, knownVersion_congr (hlater.trans hnone.symm), hknown]
      rfl

theorem withName_of_withName {fragment later : Fragment} {name : String}
    (hmetadata : later.present? "metadata" =
      (fragment.withName name).present? "metadata") :
    later.withName name = later := by
  obtain ⟨label, entries, hsettled⟩ := fragment.exists_settledMetadata name
  rw [present?_withName, hsettled] at hmetadata
  have hsame : later.settledMetadata name =
      .mapping label (named name entries) := by
    simp only [settledMetadata, hmetadata, named_named]
  rw [withName, hsame]
  exact put_present? hmetadata

theorem label_versioned (fragment : Fragment) (versioning : Versioning) :
    (fragment.versioned versioning).label = fragment.label :=
  label_put _ _ _

theorem present?_versioned_of_ne {key : String} (hne : "apiVersion" ≠ key)
    (fragment : Fragment) (versioning : Versioning) :
    (fragment.versioned versioning).present? key = fragment.present? key :=
  present?_put_of_ne hne _ fragment

theorem present?_withName_of_ne {key : String} (hne : "metadata" ≠ key)
    (fragment : Fragment) (name : String) :
    (fragment.withName name).present? key = fragment.present? key :=
  present?_assign_of_ne hne _ fragment

theorem versioned_withName (fragment : Fragment) (name : String)
    (versioning : Versioning) :
    ((fragment.withName name).versioned versioning).entries.Perm
        ((fragment.versioned versioning).withName name).entries ∧
      ∀ key, Entries.get?
        ((fragment.withName name).versioned versioning).entries key =
        Entries.get? ((fragment.versioned versioning).withName name).entries
          key := by
  have hversion : (fragment.withName name).knownVersion versioning
      ((fragment.withName name).present? "kind") =
        fragment.knownVersion versioning (fragment.present? "kind") := by
    rw [present?_withName_of_ne (by decide),
      knownVersion_congr (present?_withName_of_ne (by decide) fragment name)]
  have hmetadata : (fragment.versioned versioning).settledMetadata name =
      fragment.settledMetadata name :=
    Enrichment.settledMetadata_congr
      (present?_versioned_of_ne (by decide) fragment versioning) name
  rw [versioned, hversion, withName, withName, hmetadata, versioned]
  cases fragment.knownVersion versioning (fragment.present? "kind") with
  | none => exact ⟨.refl _, fun _ => rfl⟩
  | some version =>
      have hne : Scalar.text "apiVersion" ≠ .text "metadata" := by decide
      refine ⟨Entries.assign_comm_perm hne _ _ _, fun key => ?_⟩
      simp only [put, assign, Value.assign, Entries.get?_assign]
      split
      · next hkey => rw [if_neg (hkey ▸ hne.symm)]
      · rfl

end Fragment

namespace Enrichment

theorem kindOfFileName_settleName {context : Context} {kind : Option String}
    (hkind : kindOfFileName context = .ok kind) :
    ∃ again, kindOfFileName (settleName context kind) = .ok again ∧
      settleName (settleName context kind) again = settleName context kind ∧
        (again = kind ∨ again = none) := by
  rcases kindOfFileName_eq_ok hkind with ⟨token, htoken, -⟩ | ⟨htoken, hname⟩
  · have hsame : settleName context kind = context := by
      simp [settleName, htoken]
    exact ⟨kind, by rw [hsame, hkind], by rw [hsame, hsame], .inl rfl⟩
  · cases kind with
    | none =>
        exact ⟨none, by
          simpa [settleName] using hkind, by simp [settleName], .inl rfl⟩
    | some kind =>
        exact ⟨none, by
          simp [settleName, htoken, kindOfFileName], by
            simp [settleName], .inr rfl⟩

/-- Once the kind is settled, the kind enricher changes nothing, whatever the
others have filled in. -/
theorem enrichKind_again {state kinded later : State}
    (hdone : enrichKind state = (kinded, none))
    (hcontext : later.context = kinded.context)
    (hpresent : later.fragment.present? "kind" =
      kinded.fragment.present? "kind") :
    enrichKind later = (later, none) := by
  obtain ⟨kind, hkind, hsome, hshown, rfl⟩ := enrichKind_eq_done_iff.mp hdone
  obtain ⟨again, hagain, hsettled, hkept⟩ := kindOfFileName_settleName hkind
  obtain ⟨declared, hdeclared⟩ := Option.isSome_iff_exists.mp hsome
  rw [Fragment.present?_put_text kind state.fragment, hdeclared] at hpresent
  have hcontext : later.context = settleName state.context kind := hcontext
  refine enrichKind_eq_done_iff.mpr ⟨again, hcontext ▸ hagain, ?_, ?_, ?_⟩
  · rw [hpresent]
    rfl
  · intro hgiven shown hlater
    obtain rfl : declared = shown :=
      Option.some.inj (hpresent.symm.trans hlater)
    obtain rfl : again = kind :=
      hkept.resolve_right (Option.isSome_iff_ne_none.mp hgiven)
    cases hown : state.fragment.present? "kind" with
    | some own =>
        rw [hown, Option.some_or] at hdeclared
        exact hshown hgiven declared (hown.trans hdeclared)
    | none =>
        -- the kind of the file name is a text
        rw [hown, Option.none_or, Option.map_eq_some_iff] at hdeclared
        obtain ⟨text, -, rfl⟩ := hdeclared
        nofun
  · rw [hpresent, Option.some_or, Fragment.put_present? hpresent, hcontext,
      hsettled, ← hcontext]

namespace State

def versioned (state : State) : State :=
  { state with fragment := state.fragment.versioned state.context.versioning }

/-- What the name enricher makes of a state whose metadata stand in one
place. -/
def withName (state : State) : State :=
  { state with fragment :=
    state.fragment.withName (resourceName state.context) }

/-- Whether the kind is settled and the metadata, if any, are a mapping in one
place. -/
structure Kinded (state : State) : Prop where
  kind (later : State) : later.context = state.context →
    later.fragment.present? "kind" = state.fragment.present? "kind" →
      enrichKind later = (later, none)
  owned (metadata : Value) : state.fragment.present? "metadata" =
    some metadata →
    ∃ entries, metadata = .mapping none entries

end State

variable {state : State}

theorem State.Kinded.apply_kind (hkinded : state.Kinded) :
    apply .kind state = (state, none) :=
  hkinded.kind state rfl rfl

theorem State.Kinded.apply_name (hkinded : state.Kinded) :
    apply .name state = (state.withName, none) :=
  enrichName_of_owned hkinded.owned

theorem apply_apiVersion (state : State) :
    apply .apiVersion state = (state.versioned, none) :=
  congrArg (·, none) (enrichApiVersion_eq_versioned state)

theorem State.Kinded.versioned (hkinded : state.Kinded) :
    state.versioned.Kinded where
  kind later hcontext hkind := hkinded.kind later hcontext
    (hkind.trans (Fragment.present?_versioned_of_ne (by decide) _ _))
  owned metadata hmetadata := hkinded.owned metadata
    ((Fragment.present?_versioned_of_ne (by decide) _ _).symm.trans hmetadata)

theorem State.Kinded.withName (hkinded : state.Kinded) :
    state.withName.Kinded where
  kind later hcontext hkind := hkinded.kind later hcontext
    (hkind.trans (Fragment.present?_withName_of_ne (by decide) _ _))
  owned metadata hmetadata := by
    rw [State.withName, Fragment.present?_withName] at hmetadata
    cases hmetadata
    unfold Fragment.settledMetadata
    split
    · next hown =>
        obtain ⟨_, heq⟩ := hkinded.owned _ hown
        cases heq
        exact ⟨_, rfl⟩
    · exact ⟨_, rfl⟩

theorem State.versioned_versioned (state : State) :
    state.versioned.versioned = state.versioned :=
  congrArg (State.mk · state.context) (Fragment.versioned_of_versioned
    (Fragment.present?_versioned_of_ne (by decide) _ _) rfl)

theorem State.withName_withName (state : State) :
    state.withName.withName = state.withName :=
  congrArg (State.mk · state.context) (Fragment.withName_of_withName rfl)

theorem State.versioned_withName_versioned (state : State) :
    state.versioned.withName.versioned = state.versioned.withName := by
  refine congrArg (State.mk · state.context)
    (@Fragment.versioned_of_versioned state.fragment _ _ ?_ ?_)
  · exact (Fragment.present?_withName_of_ne (by decide) _ _).trans
      (Fragment.present?_versioned_of_ne (by decide) _ _)
  · exact Fragment.present?_withName_of_ne (by decide) _ _

theorem State.withName_versioned_withName (state : State) :
    state.withName.versioned.withName = state.withName.versioned :=
  congrArg (State.mk · state.context)
    (@Fragment.withName_of_withName state.fragment _ _
      (Fragment.present?_versioned_of_ne (by decide) _ _))

theorem run_cons_of_done {enricher : Enricher} {next : State}
    (hstep : apply enricher state = (next, none)) (rest : List Enricher) :
    run (enricher :: rest) state = run rest next := by
  rw [run, hstep]

theorem run_of_fixed (hfixed : ∀ enricher, apply enricher state = (state, none))
    (schedule : List Enricher) : run schedule state = (state, none) := by
  induction schedule with
  | nil => rfl
  | cons enricher rest ih => rw [run_cons_of_done (hfixed enricher), ih]

theorem run_of_step {enricher : Enricher} {next : State}
    (hstep : apply enricher state = (next, none))
    (hothers : ∀ other, other ≠ enricher → apply other state = (state, none))
    (hfixed : ∀ other, apply other next = (next, none))
    {schedule : List Enricher} (hmem : enricher ∈ schedule) :
    run schedule state = (next, none) := by
  induction schedule with
  | nil => cases hmem
  | cons first rest ih =>
      by_cases hfirst : first = enricher
      · rw [hfirst, run_cons_of_done hstep, run_of_fixed hfixed]
      · rw [run_cons_of_done (hothers first hfirst)]
        exact ih (List.mem_of_ne_of_mem (Ne.symm hfirst) hmem)

theorem State.Kinded.run_versioned (hkinded : state.Kinded)
    {schedule : List Enricher} (hname : .name ∈ schedule) :
    run schedule state.versioned = (state.versioned.withName, none) := by
  refine run_of_step hkinded.versioned.apply_name (fun other hother => ?_)
    (fun other => ?_) hname
  · cases other with
    | kind => exact hkinded.versioned.apply_kind
    | apiVersion => rw [apply_apiVersion, State.versioned_versioned]
    | name => exact absurd rfl hother
  · cases other with
    | kind => exact hkinded.versioned.withName.apply_kind
    | apiVersion => rw [apply_apiVersion, State.versioned_withName_versioned]
    | name =>
        rw [hkinded.versioned.withName.apply_name, State.withName_withName]

theorem State.Kinded.run_withName (hkinded : state.Kinded)
    {schedule : List Enricher} (hversion : .apiVersion ∈ schedule) :
    run schedule state.withName = (state.withName.versioned, none) := by
  refine run_of_step (apply_apiVersion _) (fun other hother => ?_)
    (fun other => ?_) hversion
  · cases other with
    | kind => exact hkinded.withName.apply_kind
    | apiVersion => exact absurd rfl hother
    | name => rw [hkinded.withName.apply_name, State.withName_withName]
  · cases other with
    | kind => exact hkinded.withName.versioned.apply_kind
    | apiVersion => rw [apply_apiVersion, State.versioned_versioned]
    | name =>
        rw [hkinded.withName.versioned.apply_name,
          State.withName_versioned_withName]

/-- A schedule with both of the later enrichers ends in one of two states, by
which of them comes first. -/
theorem State.Kinded.run_schedule (hkinded : state.Kinded)
    {schedule : List Enricher} (hversion : .apiVersion ∈ schedule)
    (hname : .name ∈ schedule) :
    run schedule state = (state.versioned.withName, none) ∨
      run schedule state = (state.withName.versioned, none) := by
  induction schedule with
  | nil => cases hname
  | cons enricher rest ih =>
      cases enricher with
      | kind =>
          rw [run_cons_of_done hkinded.apply_kind]
          exact ih ((List.mem_cons.mp hversion).resolve_left nofun)
            ((List.mem_cons.mp hname).resolve_left nofun)
      | apiVersion =>
          rw [run_cons_of_done (apply_apiVersion state)]
          exact .inl
            (hkinded.run_versioned
              ((List.mem_cons.mp hname).resolve_left nofun))
      | name =>
          rw [run_cons_of_done hkinded.apply_name]
          exact .inr
            (hkinded.run_withName
              ((List.mem_cons.mp hversion).resolve_left nofun))

theorem owned_of_enrichName {named : State}
    (hdone : enrichName state = (named, none)) {metadata : Value}
    (hmetadata : state.fragment.present? "metadata" = some metadata)
    (hlabels : metadata.labels = []) :
    ∃ entries, metadata = .mapping none entries := by
  cases hmapping : metadata.isMapping with
  | false =>
      rw [enrichName_of_malformed hmetadata hmapping] at hdone
      cases hdone
  | true =>
      cases metadata with
      | mapping label entries =>
          obtain ⟨hlabel, -⟩ := List.append_eq_nil_iff.mp hlabels
          cases label with
          | none => exact ⟨entries, rfl⟩
          | some _ => cases hlabel
      | back label => cases hlabels
      | scalar _ | list _ _ | set _ _ | pair _ _ => cases hmapping

theorem kinded_of_chain {last : State} (htree : state.fragment.IsTree)
    (hchain : run Enricher.chain state = (last, none)) :
    ∃ kinded : State, apply .kind state = (kinded, none) ∧ kinded.Kinded ∧
      last = kinded.versioned.withName := by
  obtain ⟨kinded, hfirst, hthird⟩ := exists_kinded_of_chain hchain
  have hthird : apply .name kinded.versioned = (last, none) :=
    (congrArg enrichName (enrichApiVersion_eq_versioned kinded)).symm.trans
      hthird
  have hmetadata : kinded.versioned.fragment.present? "metadata" =
      state.fragment.present? "metadata" := by
    obtain ⟨kind, -, -, -, rfl⟩ := enrichKind_eq_done_iff.mp hfirst
    exact (Fragment.present?_versioned_of_ne (by decide) _ _).trans
      (Fragment.present?_put_of_ne (by decide) _ _)
  have hkinded : kinded.Kinded := by
    refine ⟨fun later => enrichKind_again hfirst, fun metadata hpresent => ?_⟩
    have hversioned : kinded.versioned.fragment.present? "metadata" =
        some metadata :=
      (Fragment.present?_versioned_of_ne (by decide) _ _).trans hpresent
    exact owned_of_enrichName hthird hversioned
      (htree.not_shared (hmetadata.symm.trans hversioned))
  rw [hkinded.versioned.apply_name] at hthird
  cases hthird
  exact ⟨kinded, hfirst, hkinded, rfl⟩

/-- Any schedule that starts with the kind and has the other two enrichers in
it, in any order and as often as may be, succeeds where the chain does on a
tree. The two fragments hold the same under every key and differ in the order of
their keys at most; the contexts are the same. -/
theorem run_eq_chain {last : State} (htree : state.fragment.IsTree)
    (hchain : run Enricher.chain state = (last, none))
    {schedule : List Enricher} (hkind : schedule.head? = some .kind)
    (hversion : .apiVersion ∈ schedule) (hname : .name ∈ schedule) :
    ∃ after, run schedule state = (after, none) ∧ after.context = last.context ∧
      after.fragment.label = last.fragment.label ∧
        after.fragment.entries.Perm last.fragment.entries ∧
          ∀ key, Entries.get? after.fragment.entries key =
            Entries.get? last.fragment.entries key := by
  obtain ⟨kinded, hfirst, hkinded, rfl⟩ := kinded_of_chain htree hchain
  obtain ⟨rest, rfl⟩ := List.head?_eq_some_iff.mp hkind
  rw [run_cons_of_done hfirst]
  rcases hkinded.run_schedule ((List.mem_cons.mp hversion).resolve_left nofun)
    ((List.mem_cons.mp hname).resolve_left nofun) with hdone | hdone
  · exact ⟨_, hdone, rfl, rfl, .refl _, fun _ => rfl⟩
  · obtain ⟨hperm, hsame⟩ := Fragment.versioned_withName kinded.fragment
      (resourceName kinded.context) kinded.context.versioning
    have hlabel : kinded.withName.versioned.fragment.label =
        kinded.fragment.label :=
      Fragment.label_versioned _ _
    exact ⟨_, hdone, rfl,
      hlabel.trans (Fragment.label_versioned kinded.fragment _).symm,
      hperm, hsame⟩

/-- A name that is a type and is lost at the first step. The name of the
resource is filled in before the version. -/
theorem run_eq_chain_repeated :
    let registry := Registry.empty.addAll [⟨"Service", ["svc"]⟩]
    let state : State :=
      ⟨⟨none, [(.text "spec", .list none [])]⟩,
        ⟨"svc.yaml", some "svc", none, "shop", Versioning.standard, registry⟩⟩
    let last : State :=
      ⟨⟨none, [(.text "spec", .list none []), (.text "kind", .text "Service"),
          (.text "apiVersion", .text "v1"),
          (.text "metadata", .mapping none [(.text "name", .text "shop")])]⟩,
        ⟨"svc.yaml", none, none, "shop", Versioning.standard, registry⟩⟩
    let schedule : List Enricher :=
      [.kind, .name, .kind, .name, .apiVersion, .kind]
    state.fragment.IsTree ∧ run Enricher.chain state = (last, none) ∧
      ∃ after, run schedule state = (after, none) ∧ after.context.name = none ∧
        after.fragment.entries.Perm last.fragment.entries ∧
          Value.field? after.fragment.entries "apiVersion" =
            some (.text "v1") := by
  intro registry state last schedule
  have htree : state.fragment.IsTree := rfl
  have hchain : run Enricher.chain state = (last, none) := rfl
  have hkind : schedule.head? = some .kind := rfl
  obtain ⟨after, hdone, hcontext, -, hperm, hsame⟩ :=
    run_eq_chain htree hchain hkind (by decide) (by decide)
  exact ⟨htree, hchain, after, hdone, by
    rw [hcontext], hperm, (hsame _).trans rfl⟩

end Enrichment

end Fragments
