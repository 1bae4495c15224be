import Fragments.Proofs.Mapping.History
import Fragments.Proofs.Process.Session

namespace Fragments

open Registry (Handle)

variable {α : Type}

/-- The end of a list from its last marked element on; all of it when none is
marked. -/
def sinceLast (marked : α → Bool) : List α → List α
  | [] => []
  | first :: rest =>
      if rest.any marked then sinceLast marked rest else first :: rest

theorem sinceLast_concat (marked : α → Bool) (list : List α) (last : α) :
    sinceLast marked (list ++ [last]) =
      if marked last then [last] else sinceLast marked list ++ [last] := by
  induction list with
  | nil => cases marked last <;> simp [sinceLast]
  | cons first rest ih =>
      rw [List.cons_append, sinceLast, sinceLast, ih]
      cases hlast : marked last <;> cases hrest : rest.any marked <;>
        simp [hlast, hrest]

/-- The entries of the mappings file of the settings. Without such a file there
are none; nothing comes of one that cannot be read or that has an entry that is
not valid. -/
def listedEntries (disk : Disk) (settings : Settings) : Option History :=
  match settings.mappingsFile with
  | none => some []
  | some path =>
      (MappingFile.load disk path).toOption.filter fun entries =>
        entries.all (·.isValid)

def Call.batches : Call → List Batch
  | .upsert batch => [batch]
  | _ => []

namespace Registry

theorem addAll_append (registry : Registry) (early late : History) :
    registry.addAll (early ++ late) = (registry.addAll early).addAll late :=
  List.foldl_append

theorem history_append (registry : Registry) (early late : List Batch) :
    registry.history (early ++ late) =
      registry.history early ++ (registry.attemptAll early).history late := by
  induction early generalizing registry with
  | nil => rfl
  | cons batch rest ih =>
      rw [List.cons_append, history, history, ih, List.append_assoc, attemptAll,
        attemptAll, List.foldl_cons]

theorem mapM_readEntry_ready (entries : List MappingEntry) :
    (entries.map EntryInput.ready).mapM readEntry = .ok entries := by
  induction entries with
  | nil => rfl
  | cons entry rest ih =>
      simp [List.mapM_cons, ih, readEntry, bind, Except.bind, pure, Except.pure]

theorem toOption_upsert_ready (registry : Registry)
    (entries : List MappingEntry) :
    (registry.upsert (.entries (entries.map .ready))).toOption =
      if entries.all (·.isValid) then some (registry.addAll entries)
        else none := by
  simp only [upsert, mapM_readEntry_ready, bind, Except.bind, checkEntries]
  cases hfind : entries.find? fun entry => !entry.isValid with
  | none =>
      have hvalid : entries.all (·.isValid) := by simpa using hfind
      simp [hvalid, Except.toOption]
  | some entry =>
      have hmem := List.mem_of_find?_eq_some hfind
      have hbad := List.find?_some hfind
      have hinvalid : ¬entries.all (·.isValid) := fun hall => by
        simp [List.all_eq_true.mp hall entry hmem] at hbad
      simp [hinvalid, Except.toOption]

end Registry

theorem Call.answer_snd (disk : Disk) (registry : Registry) (call : Call) :
    (call.answer disk registry).2 = registry.attemptAll call.batches := by
  cases call with
  | upsert batch =>
      simp only [answer, batches, Registry.attemptAll, List.foldl,
        Registry.attempt]
      cases registry.upsert batch <;> rfl
  | _ => rfl

namespace Session

theorem toOption_configuredRegistry (world : World) (settings : Settings) :
    (configuredRegistry world settings).toOption =
      (listedEntries world.disk settings).map fun listed =>
        Registry.empty.addAll (Catalog.entries ++ listed) := by
  unfold configuredRegistry listedEntries
  cases settings.mappingsFile with
  | none => rfl
  | some path =>
      cases hload : MappingFile.load world.disk path with
      | error problem =>
          simp [MappingFile.addTo, hload, bind, Except.bind, Except.toOption]
      | ok entries =>
          simp only [MappingFile.addTo, hload, bind, Except.bind,
            Registry.toOption_upsert_ready]
          cases hvalid : entries.all (·.isValid)
          · simp only [Except.toOption, Option.filter, hvalid]
            rfl
          · simp only [Except.toOption, Option.filter, hvalid, if_true,
              Option.map_some, Registry.addAll_append, Catalog.registry]

/-- The settings that are kept, or else those that can be read. -/
def settingsIn (world : World) (session : Session) : Option Settings :=
  session.settings.or (Settings.read world.environment world.disk).toOption

theorem toOption_getSettings (world : World) (session : Session) :
    (session.getSettings world).1.toOption = session.settingsIn world := by
  unfold getSettings settingsIn
  cases session.settings with
  | some settings => rfl
  | none => cases Settings.read world.environment world.disk <;> rfl

theorem settings_getSettings (world : World) (session : Session) :
    (session.getSettings world).2.settings = session.settingsIn world := by
  unfold getSettings settingsIn
  cases hkept : session.settings with
  | some settings => simpa using hkept
  | none =>
      cases Settings.read world.environment world.disk <;>
        simp [hkept, Except.toOption]

def seedIn (world : World) (session : Session) : Option History :=
  (session.settingsIn world).bind fun settings =>
    (listedEntries world.disk settings).map fun listed =>
      Catalog.entries ++ listed

theorem toOption_getRegistry (world : World) (session : Session) :
    (session.getRegistry world).1.toOption =
      session.registry.or
        ((session.seedIn world).map Registry.empty.addAll) := by
  have hsettings := session.toOption_getSettings world
  unfold getRegistry seedIn
  cases session.registry with
  | some registry => rfl
  | none =>
      rw [← hsettings]
      cases hget : session.getSettings world with
      | mk found after =>
          cases found with
          | error problem => rfl
          | ok settings =>
              have hmade := toOption_configuredRegistry world settings
              cases hconfigured : configuredRegistry world settings with
              | error problem =>
                  simpa [Except.toOption, hconfigured, Function.comp_def]
                    using hmade
              | ok registry =>
                  simpa [Except.toOption, hconfigured, Function.comp_def]
                    using hmade

theorem registry_getRegistry (world : World) (session : Session) :
    (session.getRegistry world).2.registry =
      session.registry.or
        ((session.seedIn world).map Registry.empty.addAll) := by
  rw [← toOption_getRegistry]
  cases hget : session.getRegistry world with
  | mk found after =>
      cases found with
      | error problem => exact (registry_of_getRegistry_eq_error hget).2
      | ok registry => exact registry_of_getRegistry_eq_ok hget

theorem settings_getRegistry (world : World) (session : Session) :
    (session.getRegistry world).2.settings =
      if session.registry.isSome then session.settings
        else session.settingsIn world := by
  have hsettings := session.settings_getSettings world
  unfold getRegistry
  cases session.registry with
  | some registry => rfl
  | none =>
      cases hget : session.getSettings world with
      | mk found after =>
          rw [hget] at hsettings
          cases found with
          | error problem => exact hsettings
          | ok settings =>
              cases hconfigured : configuredRegistry world settings <;>
                simpa [hconfigured] using hsettings

theorem settings_call (world : World) (call : Call) (session : Session) :
    (session.call world call).2.settings =
      (session.getRegistry world).2.settings := by
  unfold Session.call
  split
  · next hget => rw [hget]
  · next hget => rw [hget]

theorem registry_call (world : World) (call : Call) (session : Session) :
    (session.call world call).2.registry =
      (session.getRegistry world).2.registry.map
        (·.attemptAll call.batches) := by
  unfold Session.call
  split
  · next hget =>
      rw [hget]
      simp [(registry_of_getRegistry_eq_error hget).2]
  · next hget =>
      rw [hget]
      simp [registry_of_getRegistry_eq_ok hget, Call.answer_snd]

end Session

namespace Process

namespace Step

def isReload : Step → Bool
  | .reloadSettings => true
  | _ => false

def isReset : Step → Bool
  | .reset => true
  | _ => false

theorem isReset_iff {step : Step} : step.isReset ↔ step = .reset := by
  cases step <;> simp [isReset]

def asksShared : Step → Bool
  | .getShared | .call none _ => true
  | _ => false

def batches : Step → List Batch
  | .call none asked => asked.batches
  | _ => []

end Step

structure Moment where
  before : Process
  step : Step

def trace (process : Process) : List Step → List Moment
  | [] => []
  | step :: rest => ⟨process, step⟩ :: (process.step step).trace rest

namespace Moment

def isReload (moment : Moment) : Bool := moment.step.isReload

def isReset (moment : Moment) : Bool := moment.step.isReset

/-- Whether settings are read if none are kept: on demand, or to make the shared
registry. -/
def readsSettings (moment : Moment) : Bool :=
  match moment.step with
  | .getSettings | .reloadSettings => true
  | step => step.asksShared && moment.before.shared.isNone

/-- What is read from the environment and its file. -/
def settings? (moment : Moment) : Option Settings :=
  if moment.readsSettings then
    (Settings.read moment.before.world.environment
      moment.before.world.disk).toOption
  else none

/-- The entries that the shared registry can be made from: the built-in ones,
then those of the mappings file of the settings that are kept, or else of those
that can be read. -/
def seed? (moment : Moment) : Option History :=
  if moment.step.asksShared then
    moment.before.session.seedIn moment.before.world else none

end Moment

/-- The history of the shared registry over some moments without a reset: the
entries of the first seed, then those of the batches that it has accepted from
there on. -/
def sharedHistory : List Moment → Option History
  | [] => none
  | moment :: rest =>
      match moment.seed? with
      | none => sharedHistory rest
      | some seed =>
          some (seed ++ (Registry.empty.addAll seed).history
            ((moment :: rest).flatMap (·.step.batches)))

variable {process : Process} {handle : Handle} {world : World}

theorem trace_append (process : Process) (early late : List Step) :
    process.trace (early ++ late) = process.trace early ++
    (process.run early).trace late := by
  induction early generalizing process with
  | nil => rfl
  | cons step rest ih =>
      rw [List.cons_append, trace, trace, ih]
      rfl

theorem run_concat (process : Process) (steps : List Step) (step : Step) :
    process.run (steps ++ [step]) = (process.run steps).step step :=
  List.foldl_concat Process.step process step steps

theorem sharedHistory_concat (moments : List Moment) (last : Moment) :
    sharedHistory (moments ++ [last]) =
      ((sharedHistory moments).or last.seed?).map fun history =>
        history ++ (Registry.empty.addAll history).history
          last.step.batches := by
  induction moments with
  | nil =>
      cases hseed : last.seed? with
      | none => simp [sharedHistory, hseed]
      | some seed => simp [sharedHistory, hseed]
  | cons moment rest ih =>
      rw [List.cons_append, sharedHistory, sharedHistory]
      cases hseed : moment.seed? with
      | none => exact ih
      | some seed =>
          -- what has been accepted so far makes the registry that the last
          -- moment finds
          simp [Registry.history_append, Registry.attemptAll_eq_addAll_history,
            Registry.addAll_append]

theorem isSome_registry_session (process : Process) :
    process.session.registry.isSome = process.shared.isSome := by
  simp [session]

theorem settings_step (hapart : process.Apart) (step : Step) :
    (process.step step).settings =
      if step.isReload then Moment.settings? ⟨process, step⟩
      else process.settings.or (Moment.settings? ⟨process, step⟩) := by
  have hshared : (if process.shared.isSome then process.settings
        else process.session.settingsIn process.world) =
      process.settings.or
        (if process.shared.isNone then
          (Settings.read process.world.environment process.world.disk).toOption
        else none) := by
    cases process.shared with
    | none => rfl
    | some handle => simp
  change (process.step step).session.settings = _
  rw [session_step hapart]
  cases step with
  | getSettings => exact process.session.settings_getSettings process.world
  | reloadSettings =>
      exact Session.settings_getSettings process.world
        { process.session with settings := none }
  | getShared =>
      rw [Step.onSession, Session.settings_getRegistry, isSome_registry_session]
      exact hshared
  | setEnvironment environment => exact Option.or_none.symm
  | setDisk disk => exact Option.or_none.symm
  | reset => exact Option.or_none.symm
  | make seed => exact Option.or_none.symm
  | call given asked =>
      cases given with
      | some place => exact Option.or_none.symm
      | none =>
          rw [Step.onSession, Session.settings_call,
            Session.settings_getRegistry, isSome_registry_session]
          exact hshared

theorem registry_step (hapart : process.Apart) (step : Step) :
    (process.step step).session.registry =
      if step.isReset then none
      else (process.session.registry.or
        ((Moment.seed? ⟨process, step⟩).map Registry.empty.addAll)).map
          (·.attemptAll step.batches) := by
  have hkept : ∀ registry : Option Registry,
      registry = (registry.or none).map (·.attemptAll []) := by
    rintro (_ | registry) <;> rfl
  rw [session_step hapart]
  cases step with
  | getSettings => exact (Session.registry_getSettings _ _).trans (hkept _)
  | reloadSettings => exact (Session.registry_getSettings _ _).trans (hkept _)
  | getShared =>
      rw [Step.onSession, Session.registry_getRegistry]
      exact (congrFun Option.map_id _).symm
  | setEnvironment environment => exact hkept _
  | setDisk disk => exact hkept _
  | reset => rfl
  | make seed => exact hkept _
  | call given asked =>
      cases given with
      | some place => exact hkept _
      | none =>
          rw [Step.onSession, Session.registry_call,
            Session.registry_getRegistry]
          rfl

theorem settings_run (world : World) (steps : List Step) :
    ((start world).run steps).settings =
      (sinceLast Moment.isReload ((start world).trace steps)).findSome?
        Moment.settings? := by
  -- from the end: the last step either starts the moments anew or adds one
  induction steps using List.reverseRecOn with
  | nil => rfl
  | append_singleton steps step ih =>
      rw [run_concat, settings_step (apart_run world steps), trace_append,
        trace, trace, sinceLast_concat, ih]
      change (if step.isReload then _ else _) =
        List.findSome? _ (if step.isReload then _ else _)
      cases step.isReload <;> simp [List.findSome?_append]

theorem registry_run (world : World) (steps : List Step) :
    ((start world).run steps).session.registry =
      (sharedHistory (sinceLast Moment.isReset ((start world).trace steps))).map
        Registry.empty.addAll := by
  induction steps using List.reverseRecOn with
  | nil => rfl
  | append_singleton steps step ih =>
      rw [run_concat, registry_step (apart_run world steps), trace_append,
        trace, trace, sinceLast_concat, ih]
      change (if step.isReset then _ else _) =
        Option.map _ (sharedHistory (if step.isReset then _ else _))
      cases hreset : step.isReset with
      | true =>
          rw [Step.isReset_iff.mp hreset]
          rfl
      | false =>
          -- kept, or made from a seed: either way of a history, which the
          -- batches extend
          simp only [Bool.false_eq_true, if_false, sharedHistory_concat,
            Option.map_map]
          rw [← Option.map_or, Option.map_map]
          refine Option.map_congr fun history _ => ?_
          simp [Registry.attemptAll_eq_addAll_history, Registry.addAll_append]

theorem shared_of_getShared_eq_ok {after : Process}
    (hget : process.getShared = (.ok handle, after)) :
    after.shared = some handle := by
  rcases process.getShared_cases with
    ⟨found, hshared, heq⟩ | ⟨problem, kept, -, -, heq⟩
      | ⟨registry, kept, -, -, heq⟩
  · rw [heq] at hget
    cases hget
    exact hshared
  · rw [heq] at hget
    cases hget
  · rw [heq] at hget
    cases hget
    rfl

theorem of_getShared_eq_error {after : Process} {problem : Problem}
    (hget : process.getShared = (.error problem, after)) :
    after.shared = none ∧ after.registries = process.registries ∧
      after.made = process.made := by
  rcases process.getShared_cases with
    ⟨found, -, heq⟩ | ⟨reported, kept, hshared, -, heq⟩
      | ⟨registry, kept, -, -, heq⟩
  · rw [heq] at hget
    cases hget
  · rw [heq] at hget
    cases hget
    exact ⟨hshared, rfl, rfl⟩
  · rw [heq] at hget
    cases hget

theorem getShared_of_some (hshared : process.shared = some handle) :
    process.getShared = (.ok handle, process) := by
  simp [getShared, hshared]

theorem shared_step (hshared : process.shared = some handle) {step : Step}
    (hreset : step ≠ .reset) : (process.step step).shared = some handle := by
  cases step with
  | reset => exact absurd rfl hreset
  | getShared =>
      change process.getShared.2.shared = some handle
      rw [getShared_of_some hshared]
      exact hshared
  | setEnvironment environment => exact hshared
  | setDisk disk => exact hshared
  | getSettings => exact hshared
  | reloadSettings => exact hshared
  | make seed =>
      cases hseed : Registry.empty.upsert seed with
      | error problem => rwa [step_make_of_rejected hseed]
      | ok registry => rwa [step_make hseed]
  | call given asked =>
      cases given with
      | none =>
          change (process.call none asked).2.shared = some handle
          simp only [call, resolve, getShared_of_some hshared]
          exact hshared
      | some place =>
          cases hplace : process.own[place]? with
          | none => rwa [step_call_nowhere hplace]
          | some own => rwa [step_call_own hplace]

/-- A step other than a reset leaves a shared registry as it is unless it adds a
batch to it. -/
theorem registries_step (hapart : process.Apart)
    (hshared : process.shared = some handle) {step : Step}
    (hreset : step ≠ .reset) (hbatches : step.batches = []) :
    (process.step step).registries handle = process.registries handle := by
  have hregistry := registry_step hapart step
  have hnotReset : step.isReset = false :=
    Bool.eq_false_iff.mpr fun htrue => hreset (Step.isReset_iff.mp htrue)
  simpa [session, hnotReset, hbatches, hshared, shared_step hshared hreset,
    Registry.attemptAll] using hregistry

/-- Over every run the settings are those of the first moment since the last
reload at which they could be read, and the shared registry is that of a
history: the built-in entries and those of the mappings file, as the settings in
force named it at the first moment since the last reset at which a registry
could be made, then those of the batches that it has accepted. Asking for it
gives this registry and keeps it, or fails and leaves none behind. Once there is
one, only a reset drops it and only batches that are added to it change it. -/
theorem lifeCycle (world : World) (steps : List Step) :
    let process := (start world).run steps
    let moments := (start world).trace steps
    process.settings =
      (sinceLast Moment.isReload moments).findSome? Moment.settings? ∧
      process.session.registry =
        (sharedHistory (sinceLast Moment.isReset moments)).map
          Registry.empty.addAll ∧
      (∀ handle after, process.getShared = (.ok handle, after) →
        after.shared = some handle ∧
          ∃ history,
            sharedHistory
              (sinceLast Moment.isReset (moments ++ [⟨process, .getShared⟩])) =
                some history ∧
              after.registries handle = Registry.empty.addAll history) ∧
      (∀ problem after, process.getShared = (.error problem, after) →
        after.shared = none ∧ after.registries = process.registries ∧
          after.made = process.made) ∧
      (∀ handle step, process.shared = some handle → step ≠ .reset →
        step.batches = [] →
        (process.step step).shared = some handle ∧
          (process.step step).registries handle =
            process.registries handle) := by
  intro process moments
  refine ⟨settings_run world steps, registry_run world steps, ?_, ?_, ?_⟩
  · intro handle after hget
    have hshared := shared_of_getShared_eq_ok hget
    have hrun := registry_run world (steps ++ [.getShared])
    rw [run_concat, trace_append] at hrun
    change process.getShared.2.session.registry = _ at hrun
    rw [hget, session, hshared] at hrun
    obtain ⟨history, hhistory, heq⟩ := Option.map_eq_some_iff.mp hrun.symm
    exact ⟨hshared, history, hhistory, heq.symm⟩
  · exact fun problem after hget => of_getShared_eq_error hget
  · exact fun handle step hshared hreset hbatches =>
      ⟨shared_step hshared hreset,
        registries_step (apart_run world steps) hshared hreset hbatches⟩

/-- A world whose environment names a mappings file that is not there yet. -/
def unfiled : World := ⟨[("KUBEFRAG_MAPPINGS_FILE", "extra.yaml")], .blank []⟩

def filed : Disk :=
  unfiled.disk.place (Path.ofText "extra.yaml")
    (.file (Utf8.encode "mappings:\n- kind: Widget\n  tokens: [wd]\n".toList))

/-- The mappings file comes late and goes again; another registry gets its
token. -/
def lateFileSteps : List Step :=
  [.getShared, .setDisk filed, .getShared, .setDisk unfiled.disk, .make .absent,
    .call (some 0) (.upsert (.entries [.ready ⟨"Gadget", ["wd"]⟩])),
    .call none (.upsert (.entries [.ready ⟨"", ["gd"]⟩])),
    .call none (.upsert (.entries [.ready ⟨"Gadget", ["gd"]⟩]))]

theorem lifeCycle_late_file :
    let process := (start unfiled).run lateFileSteps
    ((start unfiled).step .getShared).shared = none ∧ process.shared = some 0 ∧
      process.session.registry =
        some (Registry.empty.addAll
          (Catalog.entries ++ [⟨"Widget", ["wd"]⟩, ⟨"Gadget", ["gd"]⟩])) ∧
      (process.step .reloadSettings).registries 0 = process.registries 0 := by
  have hlost : ((start unfiled).step .getShared).shared = none := by
    decide +kernel
  have hshared : ((start unfiled).run lateFileSteps).shared = some 0 := by
    decide +kernel
  have hhistory :
      sharedHistory
        (sinceLast Moment.isReset ((start unfiled).trace lateFileSteps)) =
        some (Catalog.entries ++ [⟨"Widget", ["wd"]⟩, ⟨"Gadget", ["gd"]⟩]) := by
    decide +kernel
  obtain ⟨-, hregistry, -, -, hkept⟩ := lifeCycle unfiled lateFileSteps
  rw [hhistory] at hregistry
  exact ⟨hlost, hshared, hregistry,
    (hkept 0 .reloadSettings hshared nofun rfl).2⟩

end Process

end Fragments
