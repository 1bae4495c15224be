import Fragments.Process
import Mathlib.Data.List.Induction

namespace Fragments

open Registry (Handle)

namespace Session

variable {world : World} {session after : Session} {registry : Registry}
  {problem : Problem}

theorem registry_getSettings (world : World) (session : Session) :
    (session.getSettings world).2.registry = session.registry := by
  unfold getSettings
  split
  · rfl
  · split <;> rfl

theorem getRegistry_of_some (hregistry : session.registry = some registry)
    (world : World) :
    session.getRegistry world = (.ok registry, session) := by
  rw [getRegistry, hregistry]

theorem registry_of_getRegistry_eq_ok
    (hget : session.getRegistry world = (.ok registry, after)) :
    after.registry = some registry := by
  unfold getRegistry at hget
  split at hget
  · next found hfound =>
      cases hget
      exact hfound
  · split at hget
    · cases hget
    · split at hget <;> cases hget
      rfl

theorem with_registry_of_getRegistry
    (hget : session.getRegistry world = (.ok registry, after)) :
    { after with registry := some registry } = after := by
  rw [← registry_of_getRegistry_eq_ok hget]

theorem registry_of_getRegistry_eq_error
    (hget : session.getRegistry world = (.error problem, after)) :
    session.registry = none ∧ after.registry = none := by
  unfold getRegistry at hget
  split at hget
  · cases hget
  · next hnone =>
      have hkept := registry_getSettings world session
      split at hget
      · next hsettings =>
          cases hget
          rw [hsettings, hnone] at hkept
          exact ⟨hnone, hkept⟩
      · next hsettings =>
          rw [hsettings, hnone] at hkept
          split at hget <;> cases hget
          exact ⟨hnone, hkept⟩

theorem fst_getSettings_with (world : World) (session : Session)
    (registry : Option Registry) :
    ({ session with registry }.getSettings world).1 =
      (session.getSettings world).1 := by
  unfold getSettings
  cases session.settings with
  | some settings => rfl
  | none => cases Settings.read world.environment world.disk <;> rfl

theorem fst_getSettings_getSettings (world : World) (session : Session) :
    ((session.getSettings world).2.getSettings world).1 =
      (session.getSettings world).1 := by
  cases hkept : session.settings with
  | some settings => simp [getSettings, hkept]
  | none =>
      cases hread : Settings.read world.environment world.disk <;>
        simp [getSettings, hkept, hread]

theorem fst_getRegistry_of_none (hnone : session.registry = none) :
    (session.getRegistry world).1 =
      (session.getSettings world).1.bind (configuredRegistry world) := by
  unfold getRegistry
  rw [hnone]
  cases session.getSettings world with
  | mk found after =>
      cases found with
      | error problem => rfl
      | ok settings =>
          simp only [Except.bind]
          cases configuredRegistry world settings <;> rfl

theorem fst_getSettings_getRegistry (world : World) (session : Session) :
    ((session.getRegistry world).2.getSettings world).1 =
      (session.getSettings world).1 := by
  have hagain := session.fst_getSettings_getSettings world
  unfold getRegistry
  cases session.registry with
  | some registry => rfl
  | none =>
      cases hget : session.getSettings world with
      | mk found after =>
          rw [hget] at hagain
          cases found with
          | error problem => exact hagain
          | ok settings =>
              cases hconfigured : configuredRegistry world settings with
              | error problem => simpa [hconfigured] using hagain
              | ok registry =>
                  simpa [hconfigured, fst_getSettings_with] using hagain

theorem fst_getRegistry_getSettings (world : World) (session : Session) :
    ((session.getSettings world).2.getRegistry world).1 =
      (session.getRegistry world).1 := by
  have hkept := session.registry_getSettings world
  cases hregistry : session.registry with
  | some registry =>
      rw [hregistry] at hkept
      rw [getRegistry_of_some hkept, getRegistry_of_some hregistry]
  | none =>
      rw [hregistry] at hkept
      rw [fst_getRegistry_of_none hkept, fst_getRegistry_of_none hregistry,
        fst_getSettings_getSettings]

def call (world : World) (call : Call) (session : Session) :
    Except Problem Reply × Session :=
  match session.getRegistry world with
  | (.error problem, after) => (.error problem, after)
  | (.ok registry, after) =>
      let (reply, grown) := call.answer world.disk registry
      (reply, { after with registry := some grown })

theorem call_upsert (world : World) (batch : Batch) (session : Session) :
    session.call world (.upsert batch) =
      ((session.upsert world batch).1.map fun _ =>
        .done, (session.upsert world batch).2) := by
  unfold call upsert
  cases hget : session.getRegistry world with
  | mk found after =>
      cases found with
      | error problem => rfl
      | ok registry =>
          have hkept := with_registry_of_getRegistry hget
          cases hupsert : registry.upsert batch with
          | ok grown => simp [Call.answer, hupsert, Except.map]
          | error problem => simp [Call.answer, hupsert, hkept, Except.map]

theorem call_build (world : World) (versioning : Versioning)
    (defaultName : String) (paths : List Path) (session : Session) :
    session.call world (.build versioning defaultName paths) =
      ((session.build world versioning defaultName paths).1.map .built,
        (session.build world versioning defaultName paths).2) := by
  unfold call build
  cases hget : session.getRegistry world with
  | mk found after =>
      cases found with
      | error problem => rfl
      | ok registry =>
          have hkept := with_registry_of_getRegistry hget
          simp [Call.answer, hkept]

end Session

namespace Process

variable {process : Process} {handle other : Handle} {registry : Registry}

@[simp] theorem registries_store_self (handle : Handle) (registry : Registry)
    (process : Process) :
    (process.store handle registry).registries handle = registry := by
  simp [store]

theorem registries_store_of_ne (hne : other ≠ handle) (registry : Registry)
    (process : Process) :
    (process.store handle registry).registries other =
      process.registries other := by
  simp [store, hne]

@[simp] theorem world_store (handle : Handle) (registry : Registry)
    (process : Process) :
    (process.store handle registry).world = process.world := rfl

@[simp] theorem settings_store (handle : Handle) (registry : Registry)
    (process : Process) :
    (process.store handle registry).settings = process.settings := rfl

@[simp] theorem shared_store (handle : Handle) (registry : Registry)
    (process : Process) :
    (process.store handle registry).shared = process.shared := rfl

@[simp] theorem made_store (handle : Handle) (registry : Registry)
    (process : Process) :
    (process.store handle registry).made = process.made := rfl

@[simp] theorem own_store (handle : Handle) (registry : Registry)
    (process : Process) :
    (process.store handle registry).own = process.own := rfl

theorem session_store_of_shared (hshared : process.shared = some handle)
    (registry : Registry) :
    (process.store handle registry).session =
      { process.session with registry := some registry } := by
  simp [session, hshared]

theorem session_store_of_ne (hshared : process.shared ≠ some handle)
    (registry : Registry) :
    (process.store handle registry).session = process.session := by
  cases hcase : process.shared with
  | none => simp [session, hcase]
  | some own =>
      have hne : own ≠ handle := fun heq => hshared (heq ▸ hcase)
      simp [session, hcase, registries_store_of_ne hne]

theorem session_getSettings (process : Process) :
    process.getSettings.2.session =
      (process.session.getSettings process.world).2 := by
  have hkept := Session.registry_getSettings process.world process.session
  rw [getSettings]
  exact congrArg (Session.mk _) hkept.symm

theorem session_reloadSettings (process : Process) :
    process.reloadSettings.2.session =
      (process.session.reloadSettings process.world).2 := by
  have hkept := Session.registry_getSettings process.world
    { process.session with settings := none }
  rw [reloadSettings, Session.reloadSettings]
  exact congrArg (Session.mk _) hkept.symm

/-- What asking for the shared registry can do: answer the one there is, fail
without making any, or make one under a new handle. -/
theorem getShared_cases (process : Process) :
    (∃ handle, process.shared = some handle ∧
      process.getShared = (.ok handle, process)) ∨
      (∃ problem after, process.shared = none ∧
        process.session.getRegistry process.world = (.error problem, after) ∧
        process.getShared =
          (.error problem, { process with settings := after.settings })) ∨
      ∃ registry after, process.shared = none ∧
        process.session.getRegistry process.world = (.ok registry, after) ∧
        process.getShared =
          (.ok process.made,
            { process.store process.made registry with
              settings := after.settings, shared := some process.made, made :=
                process.made + 1 }) := by
  unfold getShared
  cases hshared : process.shared with
  | some handle => exact .inl ⟨handle, rfl, rfl⟩
  | none =>
      cases hget : process.session.getRegistry process.world with
      | mk found after =>
          cases found with
          | error problem => exact .inr (.inl ⟨problem, after, rfl, rfl, rfl⟩)
          | ok registry => exact .inr (.inr ⟨registry, after, rfl, rfl, rfl⟩)

/-- The shared registry of a process holds what the session keeps, made when the
session makes it. -/
theorem session_getShared (process : Process) :
    (process.getShared.1.map process.getShared.2.registries,
      process.getShared.2.session) =
      process.session.getRegistry process.world := by
  rcases process.getShared_cases with
    ⟨handle, hshared, heq⟩ | ⟨problem, after, hshared, hget, heq⟩
      | ⟨registry, after, hshared, hget, heq⟩
  · have hregistry :
        process.session.registry = some (process.registries handle) := by
      simp [session, hshared]
    rw [heq, Session.getRegistry_of_some hregistry]
    rfl
  · rw [heq, hget]
    have hnone := (Session.registry_of_getRegistry_eq_error hget).2
    simp [session, hshared, ← hnone, Except.map]
  · rw [heq, hget]
    have hsome := Session.registry_of_getRegistry_eq_ok hget
    simp [session, ← hsome, Except.map]

theorem world_getShared (process : Process) :
    process.getShared.2.world = process.world := by
  rcases process.getShared_cases with
    ⟨_, _, heq⟩ | ⟨_, _, _, _, heq⟩ | ⟨_, _, _, _, heq⟩
  all_goals simp [heq]

theorem call_some (handle : Handle) (call : Call) (process : Process) :
    process.call (some handle) call =
      let (reply, registry) :=
        call.answer process.world.disk (process.registries handle)
      (reply, process.store handle registry) := rfl

theorem session_call_none (call : Call) (process : Process) :
    ((process.call none call).1, (process.call none call).2.session) =
      process.session.call process.world call := by
  have hsession := process.session_getShared
  have hworld := process.world_getShared
  unfold Process.call resolve Session.call
  rw [← hsession]
  rcases process.getShared_cases with
    ⟨handle, hshared, heq⟩ | ⟨problem, after, -, -, heq⟩
      | ⟨registry, after, -, -, heq⟩
  · simp [heq, Except.map, session_store_of_shared hshared]
  · simp [heq, Except.map]
  · simp [heq, Except.map, session]

theorem world_call (given : Option Handle) (call : Call) (process : Process) :
    (process.call given call).2.world = process.world := by
  cases given with
  | some handle => rfl
  | none =>
      have hworld := process.world_getShared
      unfold Process.call resolve
      rcases process.getShared_cases with
        ⟨_, _, heq⟩ | ⟨_, _, _, _, heq⟩ | ⟨_, _, _, _, heq⟩
      all_goals simp [heq]

theorem buildResourceList_eq_call (versioning : Versioning)
    (defaultName : String) (paths : List Path) (given : Option Handle)
    (process : Process) :
    process.buildResourceList versioning defaultName paths given =
      process.call given (.build versioning defaultName paths) := by
  unfold buildResourceList openService Process.call
  cases process.resolve given with
  | mk found after => cases found <;> rfl

theorem step_make {seed : Batch}
    (hseed : Registry.empty.upsert seed = .ok registry) (process : Process) :
    process.step (.make seed) =
      { (process.make registry).2 with own :=
        process.own ++ [process.made] } := by
  simp only [step, hseed]
  rfl

theorem step_make_of_rejected {seed : Batch} {problem : Problem}
    (hseed : Registry.empty.upsert seed = .error problem) (process : Process) :
    process.step (.make seed) = process := by
  simp only [step, hseed]

theorem step_call_own {place : Nat} (hplace : process.own[place]? = some handle)
    (call : Call) :
    process.step (.call (some place) call) =
      (process.call (some handle) call).2 := by
  simp only [step, hplace]

theorem step_call_nowhere {place : Nat} (hplace : process.own[place]? = none)
    (call : Call) :
    process.step (.call (some place) call) = process := by
  simp only [step, hplace]

/-- The shared registry is none of those that callers have made, and no handle
is given out twice. -/
structure Apart (process : Process) : Prop where
  shared_lt : ∀ handle, process.shared = some handle → handle < process.made
  own_lt : ∀ handle ∈ process.own, handle < process.made
  not_mem_own : ∀ handle, process.shared = some handle → handle ∉ process.own

theorem Apart.shared_ne (hapart : process.Apart) (hown : handle ∈ process.own) :
    process.shared ≠ some handle :=
  fun hshared => hapart.not_mem_own handle hshared hown

theorem Apart.shared_ne_made (hapart : process.Apart) :
    process.shared ≠ some process.made :=
  fun hshared => Nat.lt_irrefl _ (hapart.shared_lt process.made hshared)

theorem apart_start (world : World) : (start world).Apart where
  shared_lt := by simp [start]
  own_lt := by simp [start]
  not_mem_own := by simp [start]

theorem apart_of_same {after : Process} (hapart : process.Apart)
    (hshared : after.shared = process.shared)
    (hmade : after.made = process.made) (hown : after.own = process.own) :
    after.Apart where
  shared_lt := by rw [hshared, hmade]; exact hapart.shared_lt
  own_lt := by rw [hmade, hown]; exact hapart.own_lt
  not_mem_own := by rw [hshared, hown]; exact hapart.not_mem_own

theorem apart_getShared (hapart : process.Apart) :
    process.getShared.2.Apart := by
  rcases process.getShared_cases with
    ⟨handle, hshared, heq⟩ | ⟨problem, after, hshared, -, heq⟩
      | ⟨registry, after, hshared, -, heq⟩
  · rw [heq]
    exact hapart
  · rw [heq]
    exact apart_of_same hapart rfl rfl rfl
  · rw [heq]
    exact
      { shared_lt := by simp
        own_lt := fun own hmem => Nat.lt_succ_of_lt (hapart.own_lt own hmem)
        not_mem_own := by
          rintro handle ⟨⟩ hmem
          exact absurd (hapart.own_lt process.made hmem) (Nat.lt_irrefl _) }

theorem apart_call (hapart : process.Apart) (given : Option Handle)
    (call : Call) :
    (process.call given call).2.Apart := by
  cases given with
  | some handle => exact apart_of_same hapart rfl rfl rfl
  | none =>
      have hshared := apart_getShared hapart
      unfold Process.call resolve
      cases hget : process.getShared with
      | mk found after =>
          rw [hget] at hshared
          cases found with
          | error problem => exact hshared
          | ok handle => exact apart_of_same hshared rfl rfl rfl

theorem apart_make (hapart : process.Apart) (registry : Registry) :
    Apart { (process.make registry).2 with own :=
      process.own ++ [process.made] } where
  shared_lt := fun handle hshared =>
    Nat.lt_succ_of_lt (hapart.shared_lt handle hshared)
  own_lt := by
    intro own hmem
    rcases List.mem_append.mp hmem with hold | hnew
    · exact Nat.lt_succ_of_lt (hapart.own_lt own hold)
    · rw [List.mem_singleton.mp hnew]
      exact Nat.lt_succ_self process.made
  not_mem_own := by
    intro handle hshared hmem
    rcases List.mem_append.mp hmem with hold | hnew
    · exact hapart.not_mem_own handle hshared hold
    · rw [List.mem_singleton.mp hnew] at hshared
      exact absurd (hapart.shared_lt process.made hshared) (Nat.lt_irrefl _)

theorem apart_step (hapart : process.Apart) (step : Step) :
    (process.step step).Apart := by
  cases step with
  | setEnvironment environment => exact apart_of_same hapart rfl rfl rfl
  | setDisk disk => exact apart_of_same hapart rfl rfl rfl
  | getSettings => exact apart_of_same hapart rfl rfl rfl
  | reloadSettings => exact apart_of_same hapart rfl rfl rfl
  | getShared => exact apart_getShared hapart
  | reset =>
      exact ⟨by
        simp [Process.step, reset], hapart.own_lt, by
          simp [Process.step, reset]⟩
  | make seed =>
      cases hseed : Registry.empty.upsert seed with
      | error problem =>
          rw [step_make_of_rejected hseed]
          exact hapart
      | ok registry =>
          rw [step_make hseed]
          exact apart_make hapart registry
  | call given call =>
      cases given with
      | none => exact apart_call hapart none call
      | some place =>
          cases hplace : process.own[place]? with
          | none =>
              rw [step_call_nowhere hplace]
              exact hapart
          | some handle =>
              rw [step_call_own hplace]
              exact apart_call hapart (some handle) call

theorem apart_run (world : World) (steps : List Step) :
    ((start world).run steps).Apart := by
  induction steps using List.reverseRecOn with
  | nil => exact apart_start world
  | append_singleton steps step ih =>
      rw [run, List.foldl_append]
      exact apart_step ih step

/-- What a step does to the session of a process. -/
def Step.onSession (world : World) (session : Session) : Step → Session
  | .getSettings => (session.getSettings world).2
  | .reloadSettings => (session.reloadSettings world).2
  | .getShared => (session.getRegistry world).2
  | .reset => session.reset
  | .call none asked => (session.call world asked).2
  | .setEnvironment _ | .setDisk _ | .make _ | .call (some _) _ => session

/-- Seen through its session, a process takes every step as the session does. -/
theorem session_step (hapart : process.Apart) (step : Step) :
    (process.step step).session =
      step.onSession process.world process.session := by
  cases step with
  | setEnvironment environment => rfl
  | setDisk disk => rfl
  | getSettings => exact process.session_getSettings
  | reloadSettings => exact process.session_reloadSettings
  | getShared => exact congrArg Prod.snd process.session_getShared
  | reset => rfl
  | make seed =>
      cases hseed : Registry.empty.upsert seed with
      | error problem =>
          rw [step_make_of_rejected hseed]
          rfl
      | ok registry =>
          rw [step_make hseed]
          exact session_store_of_ne hapart.shared_ne_made registry
  | call given call =>
      cases given with
      | none => exact congrArg Prod.snd (process.session_call_none call)
      | some place =>
          cases hplace : process.own[place]? with
          | none =>
              rw [step_call_nowhere hplace]
              rfl
          | some handle =>
              rw [step_call_own hplace]
              exact session_store_of_ne
                (hapart.shared_ne (List.mem_of_getElem? hplace)) _

end Process

end Fragments
