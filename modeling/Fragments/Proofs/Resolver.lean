import Fragments.Proofs.Versioning

namespace Fragments

namespace Memory

variable {memory : Memory} {place given : Nat} {versioning : Versioning}
  {further : List (Scalar × Value)}

theorem versioning?_eq_some_iff :
    memory.versioning? place = some versioning ↔
      ∃ held, memory.resolvers[place]? = some ⟨versioning.version, held⟩ ∧
        memory.dictionaries[held]? = some versioning.overrides := by
  simp only [versioning?, Option.bind_eq_bind, Option.bind_eq_some_iff]
  constructor
  · rintro ⟨⟨version, held⟩, hresolver, overrides, hoverrides, heq⟩
    cases heq
    exact ⟨held, hresolver, hoverrides⟩
  · rintro ⟨held, hresolver, hoverrides⟩
    exact ⟨_, hresolver, _, hoverrides, rfl⟩

theorem versioning?_make (versioning : Versioning) (memory : Memory) :
    (memory.make versioning).2.versioning? (memory.make versioning).1 =
      some versioning :=
  versioning?_eq_some_iff.mpr
    ⟨memory.dictionaries.length, by simp [make], by simp [make]⟩

theorem derive_eq (hversioning : memory.versioning? place = some versioning)
    (hgiven : memory.dictionaries[given]? = some further) :
    memory.derive place given =
      some (memory.make (versioning.withOverrides further)) := by
  obtain ⟨held, hresolver, hoverrides⟩ := versioning?_eq_some_iff.mp hversioning
  simp only [derive, hresolver, hoverrides, hgiven, Option.bind_eq_bind,
    Option.bind_some]
  rfl

theorem exists_make_of_derive {result : Nat × Memory}
    (hderive : memory.derive place given = some result) :
    ∃ versioning, result = memory.make versioning := by
  simp only [derive, Option.bind_eq_bind, Option.bind_eq_some_iff] at hderive
  obtain ⟨resolver, -, overrides, -, further, -, heq⟩ := hderive
  exact ⟨_, (Option.some.inj heq).symm⟩

/-- What a resolver answers by in one memory it answers by in a later one. -/
def Keeps (memory after : Memory) : Prop :=
  ∀ place versioning, memory.versioning? place = some versioning →
    after.versioning? place = some versioning

theorem getElem?_append_of_eq_some {items : List α} {i : Nat} {item : α}
    (hitem : items[i]? = some item) (more : List α) :
    (items ++ more)[i]? = some item := by
  obtain ⟨hlt, -⟩ := List.getElem?_eq_some_iff.mp hitem
  rw [List.getElem?_append_left hlt, hitem]

theorem keeps_note (memory : Memory) (entries : List (Scalar × Value)) :
    Keeps memory (memory.note entries).2 := by
  intro place versioning hversioning
  obtain ⟨held, hresolver, hoverrides⟩ := versioning?_eq_some_iff.mp hversioning
  exact versioning?_eq_some_iff.mpr
    ⟨held, hresolver, getElem?_append_of_eq_some hoverrides _⟩

theorem keeps_make (memory : Memory) (versioning : Versioning) :
    Keeps memory (memory.make versioning).2 := by
  intro place versioning hversioning
  obtain ⟨held, hresolver, hoverrides⟩ := versioning?_eq_some_iff.mp hversioning
  exact versioning?_eq_some_iff.mpr
    ⟨held, getElem?_append_of_eq_some hresolver _,
      getElem?_append_of_eq_some hoverrides _⟩

/-- No caller holds a dictionary that a resolver reads. -/
structure Owned (memory : Memory) : Prop where
  apart : ∀ resolver ∈ memory.resolvers, resolver.overrides ∉ memory.own
  stands : ∀ resolver ∈ memory.resolvers,
    resolver.overrides < memory.dictionaries.length
  own_stands : ∀ place ∈ memory.own, place < memory.dictionaries.length

theorem keeps_change (howned : memory.Owned) (place : Nat)
    (entries : List (Scalar × Value)) :
    Keeps memory (memory.change place entries) := by
  unfold change
  split
  · next hown =>
      intro other versioning hversioning
      obtain ⟨held, hresolver, hoverrides⟩ :=
        versioning?_eq_some_iff.mp hversioning
      have hne : place ≠ held := by
        rintro rfl
        exact howned.apart _ (List.mem_of_getElem? hresolver) hown
      refine versioning?_eq_some_iff.mpr ⟨held, hresolver, ?_⟩
      rw [List.getElem?_set_ne hne, hoverrides]
  · exact fun _ _ hversioning => hversioning

theorem owned_start : start.Owned := ⟨nofun, nofun, nofun⟩

theorem Owned.note (howned : memory.Owned) (entries : List (Scalar × Value)) :
    (memory.note entries).2.Owned where
  apart := by
    intro resolver hmem hown
    rcases List.mem_append.mp hown with hold | hnew
    · exact howned.apart resolver hmem hold
    · exact absurd (List.mem_singleton.mp hnew) (howned.stands resolver hmem).ne
  stands := fun resolver hmem => by
    simpa [Memory.note] using Nat.lt_succ_of_lt (howned.stands resolver hmem)
  own_stands := by
    intro place hown
    rcases List.mem_append.mp hown with hold | hnew
    · simpa [Memory.note] using Nat.lt_succ_of_lt (howned.own_stands place hold)
    · simp [Memory.note, List.mem_singleton.mp hnew]

theorem Owned.change (howned : memory.Owned) (place : Nat)
    (entries : List (Scalar × Value)) :
    (memory.change place entries).Owned := by
  unfold Memory.change
  split
  · exact ⟨howned.apart, by
      simpa using howned.stands, by simpa using howned.own_stands⟩
  · exact howned

theorem Owned.make (howned : memory.Owned) (versioning : Versioning) :
    (memory.make versioning).2.Owned where
  apart := by
    intro resolver hmem hown
    rcases List.mem_append.mp hmem with hold | hnew
    · exact howned.apart resolver hold hown
    · cases List.mem_singleton.mp hnew
      exact (howned.own_stands _ hown).ne rfl
  stands := by
    intro resolver hmem
    rcases List.mem_append.mp hmem with hold | hnew
    · simpa [Memory.make] using Nat.lt_succ_of_lt (howned.stands resolver hold)
    · cases List.mem_singleton.mp hnew
      simp [Memory.make]
  own_stands := fun place hown => by
    simpa [Memory.make] using Nat.lt_succ_of_lt (howned.own_stands place hown)

theorem owned_step (howned : memory.Owned) (step : Step) :
    (memory.step step).Owned ∧ Keeps memory (memory.step step) := by
  cases step with
  | note entries => exact ⟨howned.note entries, keeps_note memory entries⟩
  | change place entries =>
      exact ⟨howned.change place entries, keeps_change howned place entries⟩
  | make versioning =>
      exact ⟨howned.make versioning, keeps_make memory versioning⟩
  | derive place given =>
      simp only [Memory.step]
      split
      · next made after hderive =>
          obtain ⟨versioning, heq⟩ := exists_make_of_derive hderive
          cases heq
          exact ⟨howned.make versioning, keeps_make memory versioning⟩
      · exact ⟨howned, fun _ _ hversioning => hversioning⟩

theorem owned_run (howned : memory.Owned) (steps : List Step) :
    (memory.run steps).Owned ∧ Keeps memory (memory.run steps) := by
  induction steps generalizing memory with
  | nil => exact ⟨howned, fun _ _ hversioning => hversioning⟩
  | cons step rest ih =>
      obtain ⟨hstepped, hkept⟩ := owned_step howned step
      obtain ⟨hrun, hlater⟩ := ih hstepped
      exact ⟨hrun, fun place versioning hversioning =>
        hlater place versioning (hkept place versioning hversioning)⟩

end Memory

namespace Versioning

/-- The version of a group counts for the kinds that the group governs and for
no others: of two settings that agree on the versions of all other groups, the
resolvers answer alike for the kinds of other groups, and each by its own
version for those of the group. In front of that stand overrides. Each of them
is the value for its own kind and leaves the others as they were, and two maps
of them, one after the other, are as good as the first updated by the second. A
resolver from which another is derived answers as it did before, whatever
happens afterwards, and so does the other. -/
theorem groups_govern_and_overrides_compose {group : Group}
    {settings others : Settings}
    (hagree : ∀ other, other ≠ group →
      settings.version other = others.version other) (versioning : Versioning)
    {first second : List (Scalar × Value)}
    (hfirst : Value.IsDictionary first) (hsecond : Value.IsDictionary second) :
    (ofSettings settings = .ok settings.versioning ∧
      ofSettings others = .ok others.versioning ∧
      ∀ kind,
        (¬group.Governs kind →
          settings.versioning.forKind? (some kind) =
            others.versioning.forKind? (some kind)) ∧
        (group.Governs kind →
          settings.versioning.forKind? (some kind) =
              .text (settings.version group) ∧
            others.versioning.forKind? (some kind) =
              .text (others.version group))) ∧
      (∀ kind, (versioning.withOverrides first).forKind? kind =
        (kind.bind (Value.field? first)).getD (versioning.forKind? kind)) ∧
      (∀ kind,
        ((versioning.withOverrides first).withOverrides second).forKind? kind =
        (versioning.withOverrides (Value.update first second)).forKind? kind) ∧
      ∀ (before : List Memory.Step) (place given : Nat),
        (Memory.start.run before).versioning? place = some versioning →
        (Memory.start.run before).dictionaries[given]? = some first →
        ∃ made after,
          (Memory.start.run before).derive place given = some (made, after) ∧
          ∀ later : List Memory.Step,
            (after.run later).versioning? place = some versioning ∧
            (after.run later).versioning? made =
              some (versioning.withOverrides first) := by
  refine ⟨⟨ofSettings_eq settings, ofSettings_eq others,
      fun kind => ⟨fun hother => ?_, fun hgoverns => ?_⟩⟩,
    forKind?_withOverrides versioning hfirst,
    forKind?_withOverrides_withOverrides versioning hfirst hsecond,
    fun before place given hversioning hgiven => ?_⟩
  · have hversion :=
      hagree (Group.ofKind kind) (mt Group.ofKind_eq_iff.mp hother)
    rw [forKind?, forKind?, forKind_versioning, forKind_versioning, hversion]
  · rw [forKind?, forKind?, forKind_versioning, forKind_versioning,
      Group.ofKind_eq_iff.mpr hgoverns]
    exact ⟨rfl, rfl⟩
  · generalize hmemory : Memory.start.run before = memory at hversioning hgiven
    have howned : memory.Owned :=
      hmemory ▸ (Memory.owned_run Memory.owned_start before).1
    let derived := versioning.withOverrides first
    refine ⟨_, _, Memory.derive_eq hversioning hgiven, fun later => ?_⟩
    have hkept := (Memory.owned_run (howned.make derived) later).2
    exact ⟨hkept _ _ (Memory.keeps_make memory derived _ _ hversioning),
      hkept _ _ (Memory.versioning?_make derived memory)⟩

/-- Settings that differ in the version of the apps group, and an override that
takes deployments from the group. Whoever holds the map of overrides changes it
afterwards. -/
theorem groups_govern_and_overrides_compose_apps :
    let settings : Settings :=
      ⟨"app", none, .yaml, "WARNING", Group.defaultVersion⟩
    let others : Settings := { settings with
      version := fun group => if group = .apps then "apps/v1beta2"
        else group.defaultVersion }
    let first := [(.text "Deployment", .text "extensions/v1beta1"),
      (.text "Job", .text "batch/v2")]
    let second :=
    [(.text "Job", .null), (.text "Widget", .text "example.org/v1")]
      let memory := Memory.start.run [.make others.versioning, .note first]
    ((∀ other, other ≠ Group.apps →
      settings.version other = others.version other) ∧
        Value.IsDictionary first ∧ Value.IsDictionary second) ∧
      ofSettings others = .ok others.versioning ∧
      others.versioning.forKind? (some "StatefulSet") = .text "apps/v1beta2" ∧
      settings.versioning.forKind? (some "DeploymentConfig") =
        others.versioning.forKind? (some "DeploymentConfig") ∧
      (others.versioning.withOverrides first).forKind? (some "Deployment") =
        .text "extensions/v1beta1" ∧
      (others.versioning.withOverrides first).forKind? (some "StatefulSet") =
        .text "apps/v1beta2" ∧
      (others.versioning.withOverrides (Value.update first second)).forKind?
        (some "Job") = .null ∧
      ∃ made after, memory.derive 0 1 = some (made, after) ∧
        (after.run [.change 1 second]).versioning? 0 = some others.versioning ∧
        (after.run [.change 1 second]).versioning? made =
          some (others.versioning.withOverrides first) := by
  intro settings others first second memory
  have hagree : ∀ other, other ≠ Group.apps →
      settings.version other = others.version other :=
    fun _ hne => (if_neg hne).symm
  have hfirst : Value.IsDictionary first := by decide
  have hsecond : Value.IsDictionary second := by decide
  obtain ⟨⟨-, hmade, hgroups⟩, hone, htwo, hmemory⟩ :=
    groups_govern_and_overrides_compose hagree others.versioning hfirst hsecond
  refine ⟨⟨hagree, hfirst, hsecond⟩, hmade,
    ((hgroups "StatefulSet").2 (by decide)).2,
    (hgroups "DeploymentConfig").1 (by decide), hone (some "Deployment"),
    hone (some "StatefulSet"), (htwo (some "Job")).symm, ?_⟩
  obtain ⟨made, after, hderive, hlater⟩ :=
    hmemory [.make others.versioning, .note first] 0 1 rfl rfl
  exact ⟨made, after, hderive, hlater [.change 1 second]⟩

end Versioning

end Fragments
