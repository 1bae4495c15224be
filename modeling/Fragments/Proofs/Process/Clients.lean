import Fragments.Proofs.Data.Outcome
import Fragments.Proofs.Process.Session

namespace Fragments

open Registry (Handle)

variable {α β σ τ : Type}

/-- What is answered when some things are done one after the other. -/
def answers (act : α → σ → β × σ) : σ → List α → List β
  | _, [] => []
  | state, first :: rest =>
      (act first state).1 :: answers act (act first state).2 rest

/-- States that answer alike, and go on doing so, answer alike in the long
run. -/
theorem answers_congr {act : α → σ → β × σ} {other : α → τ → β × τ}
    (Related : σ → τ → Prop) (hstep : ∀ first state image, Related state image →
      (act first state).1 = (other first image).1 ∧
        Related (act first state).2 (other first image).2)
    {state : σ} {image : τ} (hrelated : Related state image) (list : List α) :
    answers act state list = answers other image list := by
  induction list generalizing state image with
  | nil => rfl
  | cons first rest ih =>
      obtain ⟨hreply, hafter⟩ := hstep first state image hrelated
      rw [answers, answers, hreply, ih hafter]

/-- Two systems side by side, of which one takes each turn. -/
def sideBySide (left : α → σ → β × σ) (right : α → τ → β × τ) :
    α ⊕ α → σ × τ → (β ⊕ β) × (σ × τ)
  | .inl first, (state, image) =>
      (.inl (left first state).1, ((left first state).2, image))
  | .inr first, (state, image) =>
      (.inr (right first image).1, (state, (right first image).2))

theorem left_answers_sideBySide (left : α → σ → β × σ) (right : α → τ → β × τ)
    (state : σ) (image : τ) (turns : List (α ⊕ α)) :
    (answers (sideBySide left right) (state, image) turns).filterMap
      Sum.getLeft? =
      answers left state (turns.filterMap Sum.getLeft?) := by
  induction turns generalizing state image with
  | nil => rfl
  | cons turn rest ih =>
      cases turn with
      | inl first => simp [answers, sideBySide, ih]
      | inr first =>
          rw [answers, sideBySide, List.filterMap_cons_none rfl,
            List.filterMap_cons_none rfl, ih]

theorem right_answers_sideBySide (left : α → σ → β × σ) (right : α → τ → β × τ)
    (state : σ) (image : τ) (turns : List (α ⊕ α)) :
    (answers (sideBySide left right) (state, image) turns).filterMap
      Sum.getRight? =
      answers right image (turns.filterMap Sum.getRight?) := by
  induction turns generalizing state image with
  | nil => rfl
  | cons turn rest ih =>
      cases turn with
      | inl first =>
          rw [answers, sideBySide, List.filterMap_cons_none rfl,
            List.filterMap_cons_none rfl, ih]
      | inr first => simp [answers, sideBySide, ih]

namespace Process

/-- The call that an operation comes to under some settings. -/
def Operation.toCall (settings : Settings) : Operation → Call
  | .upsert batch => .upsert batch
  | .kindOf token => .kindOf token
  | .tokenOf kind => .tokenOf kind
  | .suffix name kind => .suffix name kind
  | .build paths defaultName =>
      .build settings.versioning (nameOr settings defaultName) paths

/-- What an operation answers under some settings, and what it makes of a
registry. -/
def Operation.answer (world : World) (settings : Settings)
    (operation : Operation) (registry : Registry) :
    Except Problem Reply × Registry :=
  (operation.toCall settings).answer world.disk registry

variable {world : World} {process : Process} {connection : Connection}
  {handle : Handle} {settings : Settings} {registry : Registry}

theorem defaultNameOr_eq_nameOr (client : Client) (name : Option String) :
    client.defaultNameOr name = nameOr client.settings name := by
  cases name with
  | none => rfl
  | some name =>
      cases hempty : name.isEmpty <;>
        simp [Client.defaultNameOr, nameOr, Option.filter, hempty]

theorem store_registries (handle : Handle) (process : Process) :
    process.store handle (process.registries handle) = process := by
  have hsame : (fun other => if other = handle then process.registries handle
      else process.registries other) = process.registries := by
    funext other
    split <;> simp_all
  rw [store, hsame]

/-- What a registry holds in a process, and the world around it. -/
structure Holds (world : World) (handle : Handle) (process : Process)
    (registry : Registry) :
    Prop where
  here : process.world = world
  registry : process.registries handle = registry

/-- An operation of a client that has the versions of its settings does to its
registry what it is described to do, and nothing else. -/
theorem perform_connection
    (hversioning : connection.versioning = connection.settings.versioning)
    (operation : Operation) (process : Process) :
    connection.perform operation process =
      let (reply, registry) :=
        operation.answer process.world connection.settings
        (process.registries connection.registry)
      (reply, process.store connection.registry registry) := by
  cases operation with
  | upsert batch =>
      simp only [Connection.perform, Connection.client, Client.upsert,
        Operation.answer, Operation.toCall, Call.answer, bind, Except.bind]
      cases (process.registries connection.registry).upsert batch with
      | error problem => simp [store_registries]
      | ok grown => rfl
  | build paths defaultName =>
      simp [Connection.perform, Operation.answer, Operation.toCall, Call.answer,
        store_registries, Client.build, Connection.client,
        defaultNameOr_eq_nameOr, hversioning]
  | _ =>
      simp [Connection.perform, Operation.answer, Operation.toCall, Call.answer,
        store_registries, Connection.client]

theorem holds_perform
    (hversioning : connection.versioning = connection.settings.versioning)
    (hholds : Holds world connection.registry process registry)
    (operation : Operation) :
    (connection.perform operation process).1 =
        (operation.answer world connection.settings registry).1 ∧
      Holds world connection.registry (connection.perform operation process).2
        (operation.answer world connection.settings registry).2 := by
  rw [perform_connection hversioning, hholds.here, hholds.registry]
  exact ⟨rfl, hholds.here, registries_store_self _ _ _⟩

/-- What a process would use now if asked for its settings and for its shared
registry, and the world around it. -/
structure Serves (world : World) (settings : Settings) (process : Process)
    (registry : Registry) :
    Prop where
  here : process.world = world
  settings : (process.session.getSettings world).1 = .ok settings
  registry : (process.session.getRegistry world).1 = .ok registry

theorem serves_getSettings (hserves : Serves world settings process registry) :
    process.getSettings.1 = .ok settings ∧
      Serves world settings process.getSettings.2 registry := by
  have hsession := process.session_getSettings
  have hfound : process.getSettings.1 =
      (process.session.getSettings process.world).1 := rfl
  rw [hserves.here] at hsession hfound
  refine ⟨hfound.trans hserves.settings, hserves.here, ?_, ?_⟩
  · rw [hsession, Session.fst_getSettings_getSettings]
    exact hserves.settings
  · rw [hsession, Session.fst_getRegistry_getSettings]
    exact hserves.registry

theorem serves_call (hserves : Serves world settings process registry)
    (call : Call) :
    (process.call none call).1 = (call.answer world.disk registry).1 ∧
      Serves world settings (process.call none call).2
        (call.answer world.disk registry).2 := by
  have hcall := process.session_call_none call
  have hagain := Session.fst_getSettings_getRegistry world process.session
  rw [hserves.here] at hcall
  cases hget : process.session.getRegistry world with
  | mk found after =>
      have hfound : found = .ok registry := by
        simpa [hget] using hserves.registry
      rw [hget] at hagain
      simp only [Session.call, hget, hfound, Prod.mk.injEq] at hcall
      refine ⟨hcall.1,
        (process.world_call none call).trans hserves.here, ?_, ?_⟩
      · rw [hcall.2, Session.fst_getSettings_with]
        exact hagain.trans hserves.settings
      · rw [hcall.2, Session.getRegistry_of_some rfl]

theorem perform_eq_call (operation : Operation) (process : Process)
    (hsettings : process.getSettings.1 = .ok settings) :
    perform operation process = process.call none (operation.toCall settings) ∨
      perform operation process =
        process.getSettings.2.call none (operation.toCall settings) := by
  cases operation with
  | build paths defaultName =>
      refine .inr ?_
      cases hget : process.getSettings with
      | mk found after =>
          have hfound : found = .ok settings := by simpa [hget] using hsettings
          simp only [perform, hget, hfound, buildResourceList_eq_call,
            Operation.toCall]
  | _ => exact .inl rfl

/-- An operation by the entry points does to the shared registry what it is
described to do. -/
theorem serves_perform (hserves : Serves world settings process registry)
    (operation : Operation) :
    (perform operation process).1 =
      (operation.answer world settings registry).1 ∧
      Serves world settings (perform operation process).2
        (operation.answer world settings registry).2 := by
  obtain ⟨hsettings, hafter⟩ := serves_getSettings hserves
  rcases perform_eq_call operation process hsettings with heq | heq
  · rw [heq]
    exact serves_call hserves _
  · rw [heq]
    exact serves_call hafter _

/-- A registry that has been made and is not the shared one. -/
structure Beside (handle : Handle) (process : Process) : Prop where
  lt : handle < process.made
  ne : process.shared ≠ some handle

theorem beside_getShared (hbeside : process.Beside handle) :
    process.getShared.2.Beside handle ∧
      process.getShared.2.registries handle = process.registries handle ∧
      process.getShared.1 ≠ .ok handle := by
  rcases process.getShared_cases with
    ⟨found, hshared, heq⟩ | ⟨problem, after, -, -, heq⟩
      | ⟨registry, after, -, -, heq⟩
  · rw [heq]
    refine ⟨hbeside, rfl, fun hsame => hbeside.ne ?_⟩
    exact hshared.trans (congrArg some (Except.ok.inj hsame))
  · rw [heq]
    exact ⟨⟨hbeside.lt, hbeside.ne⟩, rfl, nofun⟩
  · have hne : handle ≠ process.made := Nat.ne_of_lt hbeside.lt
    rw [heq]
    refine ⟨⟨Nat.lt_succ_of_lt hbeside.lt, ?_⟩,
      registries_store_of_ne hne registry process, ?_⟩
    · exact fun hsame => hne (Option.some.inj hsame).symm
    · exact fun hsame => hne (Except.ok.inj hsame).symm

theorem beside_call (hbeside : process.Beside handle) (call : Call) :
    (process.call none call).2.Beside handle ∧
      (process.call none call).2.registries handle =
        process.registries handle := by
  obtain ⟨hafter, hregistry, hne⟩ := beside_getShared hbeside
  unfold Process.call resolve
  cases hget : process.getShared with
  | mk found after =>
      rw [hget] at hafter hregistry hne
      cases found with
      | error problem => exact ⟨hafter, hregistry⟩
      | ok shared =>
          have hother : handle ≠ shared := fun hsame =>
            hne (congrArg Except.ok hsame.symm)
          exact ⟨⟨hafter.lt, hafter.ne⟩,
            (registries_store_of_ne hother _ after).trans hregistry⟩

/-- The entry points leave a registry alone that is beside the shared one. -/
theorem beside_perform (hbeside : process.Beside handle) (operation : Operation)
    (hsettings : process.getSettings.1 = .ok settings) :
    (perform operation process).2.Beside handle ∧
      (perform operation process).2.registries handle =
        process.registries handle := by
  rcases perform_eq_call operation process hsettings with heq | heq
  · rw [heq]
    exact beside_call hbeside _
  · have hsame : process.getSettings.2.Beside handle := ⟨hbeside.lt, hbeside.ne⟩
    rw [heq]
    exact beside_call hsame _

/-- A client leaves what the entry points use alone. -/
theorem serves_store_of_ne (hne : process.shared ≠ some handle)
    (hserves : Serves world settings process registry) (stored : Registry) :
    Serves world settings (process.store handle stored) registry := by
  have hsession := session_store_of_ne hne stored
  exact ⟨hserves.here, by rw [hsession]; exact hserves.settings,
    by rw [hsession]; exact hserves.registry⟩

/-- Turns are taken by a client on the left and by the entry points on the
right. -/
def takeTurn (connection : Connection) :
    Operation ⊕ Operation → Process →
      (Except Problem Reply ⊕ Except Problem Reply) × Process
  | .inl operation, process =>
      let (reply, after) := connection.perform operation process
      (.inl reply, after)
  | .inr operation, process =>
      let (reply, after) := perform operation process
      (.inr reply, after)

/-- A client and the entry points in one process, each with what its own
registry holds. -/
structure Linked (world : World) (connection : Connection) (process : Process)
    (registries : Registry × Registry) : Prop where
  own : Holds world connection.registry process registries.1
  serves : Serves world connection.settings process registries.2
  beside : process.Beside connection.registry

theorem linked_takeTurn {registries : Registry × Registry}
    (hversioning : connection.versioning = connection.settings.versioning)
    (hlinked : Linked world connection process registries)
    (turn : Operation ⊕ Operation) :
    let described := sideBySide (Operation.answer world connection.settings)
      (Operation.answer world connection.settings) turn registries
    (takeTurn connection turn process).1 = described.1 ∧
      Linked world connection (takeTurn connection turn process).2
        described.2 := by
  intro described
  cases turn with
  | inl operation =>
      obtain ⟨hreply, hown⟩ := holds_perform hversioning hlinked.own operation
      have hafter :=
        congrArg Prod.snd (perform_connection hversioning operation process)
      refine ⟨congrArg Sum.inl hreply, hown, ?_, ?_⟩
      · exact hafter ▸ serves_store_of_ne hlinked.beside.ne hlinked.serves _
      · exact hafter ▸ ⟨hlinked.beside.lt, hlinked.beside.ne⟩
  | inr operation =>
      obtain ⟨hreply, hserves⟩ := serves_perform hlinked.serves operation
      obtain ⟨hbeside, hown⟩ := beside_perform hlinked.beside operation
        (serves_getSettings hlinked.serves).1
      exact ⟨congrArg Sum.inr hreply,
        ⟨hserves.here, hown.trans hlinked.own.registry⟩, hserves, hbeside⟩

/-- What a client and the shared registry of a fresh process are made from. -/
def foundation (world : World) : Except Problem (Settings × Registry) := do
  let settings ← Settings.read world.environment world.disk
  let registry ← Session.configuredRegistry world settings
  .ok (settings, registry)

theorem of_foundation_eq_ok
    (hfound : foundation world = .ok (settings, registry)) :
    Settings.read world.environment world.disk = .ok settings ∧
      Session.configuredRegistry world settings = .ok registry := by
  obtain ⟨read, hread, hrest⟩ := bind_eq_ok_iff.mp hfound
  obtain ⟨made, hconfigured, hpair⟩ := bind_eq_ok_iff.mp hrest
  cases hpair
  exact ⟨hread, hconfigured⟩

theorem fst_getSettings_start (world : World) :
    ((start world).session.getSettings world).1 =
      Settings.read world.environment world.disk := by
  simp only [start, session, Session.getSettings]
  cases Settings.read world.environment world.disk <;> rfl

theorem fst_getRegistry_start (world : World) :
    ((start world).session.getRegistry world).1 =
      (foundation world).map Prod.snd := by
  rw [Session.fst_getRegistry_of_none rfl, fst_getSettings_start, foundation]
  cases Settings.read world.environment world.disk with
  | error problem => rfl
  | ok settings =>
      simp only [Except.bind, bind]
      cases Session.configuredRegistry world settings <;> rfl

theorem make_default (world : World) (settings : Settings) :
    Client.make world settings none none =
      (Session.configuredRegistry world settings).map fun registry =>
        ⟨settings, registry, settings.versioning⟩ := by
  simp only [Client.make, bind, Except.bind]
  cases Session.configuredRegistry world settings <;> rfl

theorem connect_of_settings {after : Process}
    (hget : process.getSettings = (.ok settings, after)) :
    connect process =
      match Session.configuredRegistry after.world settings with
      | .error problem => (.error problem, after)
      | .ok registry =>
          (.ok ⟨settings, after.made, settings.versioning⟩,
            (after.make registry).2) := by
  unfold connect
  rw [hget]
  simp only [make_default]
  cases Session.configuredRegistry after.world settings <;> rfl

theorem getSettings_start (world : World) :
    (start world).getSettings =
      (Settings.read world.environment world.disk,
        { start world with
          settings :=
            (Settings.read world.environment world.disk).toOption }) := by
  simp only [getSettings, start, session, Session.getSettings]
  cases Settings.read world.environment world.disk <;> rfl

theorem connect_start_of_error {problem : Problem}
    (hfailed : foundation world = .error problem) :
    (connect (start world)).1 = .error problem := by
  have hget := getSettings_start world
  rcases bind_eq_error_iff.mp hfailed with hread | ⟨settings, hread, hrest⟩
  · rw [connect, hget, hread]
  · rw [hread] at hget
    rcases bind_eq_error_iff.mp hrest with hconfigured | ⟨registry, -, hnone⟩
    · rw [connect_of_settings hget]
      simp [start, hconfigured]
    · cases hnone

theorem connect_start_of_ok
    (hfound : foundation world = .ok (settings, registry)) :
    connect (start world) =
      (.ok ⟨settings, 0, settings.versioning⟩,
        { (start world).store 0 registry with
          settings := some settings, made := 1 }) := by
  obtain ⟨hread, hconfigured⟩ := of_foundation_eq_ok hfound
  have hget := getSettings_start world
  rw [hread] at hget
  rw [connect_of_settings hget]
  simp only [start, hconfigured]
  rfl

theorem connect_start_eq_error_iff {problem : Problem} :
    (connect (start world)).1 = .error problem ↔
      foundation world = .error problem := by
  refine ⟨fun hfailed => ?_, connect_start_of_error⟩
  cases hfound : foundation world with
  | error other =>
      cases (connect_start_of_error hfound).symm.trans hfailed
      rfl
  | ok found => simp [connect_start_of_ok hfound] at hfailed

theorem getShared_start_eq_error_iff {problem : Problem} :
    (start world).getShared.1 = .error problem ↔
      foundation world = .error problem := by
  have hsession := congrArg Prod.fst (start world).session_getShared
  have hregistry :
      (start world).getShared.1.map (start world).getShared.2.registries =
      (foundation world).map Prod.snd :=
    hsession.trans (fst_getRegistry_start world)
  rw [← map_eq_error_iff, hregistry, map_eq_error_iff]

theorem connect_start_eq_ok
    (hconnect : connect (start world) = (.ok connection, process)) :
    ∃ registry, connection.versioning = connection.settings.versioning ∧
      Serves world connection.settings (start world) registry ∧
      Linked world connection process (registry, registry) := by
  cases hfound : foundation world with
  | error problem =>
      have hfailed := connect_start_of_error hfound
      rw [hconnect] at hfailed
      cases hfailed
  | ok found =>
      obtain ⟨settings, registry⟩ := found
      obtain ⟨hread, hconfigured⟩ := of_foundation_eq_ok hfound
      rw [connect_start_of_ok hfound] at hconnect
      cases hconnect
      refine ⟨registry, rfl, ⟨rfl, ?_, ?_⟩, ⟨rfl, ?_⟩, ⟨rfl, rfl, ?_⟩, ?_⟩
      · exact (fst_getSettings_start world).trans hread
      · exact (fst_getRegistry_start world).trans (by rw [hfound]; rfl)
      · exact registries_store_self 0 registry (start world)
      · simp [session, start, Session.getRegistry, Session.getSettings,
          hconfigured]
      · exact ⟨Nat.zero_lt_one, by simp [start]⟩

/-- A client can be made in a fresh process exactly when the shared registry can
be, and the same goes wrong if not; settings that cannot be read are such a
case. From then on, as long as environment and files stay as they are,
operations of the client are answered like those of the entry points in a fresh
process. This holds also when both take turns in one process, however they do:
what each answers does not depend on the turns of the other. -/
theorem connect_simulates (world : World) :
    (∀ problem, (connect (start world)).1 = .error problem ↔
        (start world).getShared.1 = .error problem) ∧
      (∀ problem, (start world).getSettings.1 = .error problem →
        (connect (start world)).1 = .error problem) ∧
      ∀ connection process, connect (start world) = (.ok connection, process) →
        (∀ operations, answers connection.perform process operations =
          answers perform (start world) operations) ∧
        ∀ turns,
          (answers (takeTurn connection) process turns).filterMap Sum.getLeft? =
              answers connection.perform process
                (turns.filterMap Sum.getLeft?) ∧
            (answers (takeTurn connection) process turns).filterMap
                Sum.getRight? =
              answers perform (start world)
                (turns.filterMap Sum.getRight?) := by
  refine ⟨fun problem => ?_, fun problem hfailed =>
    ?_, fun connection process hconnect => ?_⟩
  · rw [connect_start_eq_error_iff, getShared_start_eq_error_iff]
  · rw [getSettings_start] at hfailed
    exact connect_start_of_error (bind_eq_error_iff.mpr (.inl hfailed))
  · obtain ⟨registry, hversioning, hserves, hlinked⟩ :=
      connect_start_eq_ok hconnect
    have hclient : ∀ operations, answers connection.perform process operations =
        answers (Operation.answer world connection.settings) registry
          operations :=
      answers_congr (Holds world connection.registry)
        (fun operation _ _ hholds => holds_perform hversioning hholds operation)
          hlinked.own
    have hentry : ∀ operations, answers perform (start world) operations =
        answers (Operation.answer world connection.settings) registry
          operations :=
      answers_congr (Serves world connection.settings)
        (fun operation _ _ hserves => serves_perform hserves operation) hserves
    have hturns : ∀ turns, answers (takeTurn connection) process turns =
        answers
          (sideBySide (Operation.answer world connection.settings)
            (Operation.answer world connection.settings))
            (registry, registry) turns :=
      answers_congr (Linked world connection)
        (fun turn _ _ hlinked => linked_takeTurn hversioning hlinked turn)
          hlinked
    refine ⟨fun operations =>
      (hclient operations).trans (hentry operations).symm,
        fun turns => ⟨?_, ?_⟩⟩
    · rw [hturns, left_answers_sideBySide, hclient]
    · rw [hturns, right_answers_sideBySide, hentry]

def shop : World :=
  ⟨[("KUBEFRAG_DEFAULT_APP_NAME", "shop")],
    .place (.blank []) (Path.ofText "-widget.yaml") (.file [])⟩

/-- A batch that is rejected, one that is accepted, and uses of what it has
added. -/
def shopOperations : List Operation :=
  [.upsert (.entries [.ready ⟨"", ["x"]⟩]),
    .upsert (.entries [.ready ⟨"Widget", ["wd", "widget"]⟩]),
    .suffix "web" (some "Widget"), .build [Path.ofText "-widget.yaml"] none]

def unreadable : World := ⟨[("KUBEFRAG_OUTPUT_FORMAT", "xml")], .blank []⟩

theorem connect_simulates_shop :
    (∃ problem, (connect (start unreadable)).1 = .error problem ∧
      (start unreadable).getShared.1 = .error problem) ∧
    ∃ connection process, connect (start shop) = (.ok connection, process) ∧
      answers connection.perform process shopOperations =
        answers perform (start shop) shopOperations ∧
      (answers perform (start shop) shopOperations).map
          (fun reply => match reply with
            | .ok (.text found) => found
            | .ok (.built list) => list.names.head?.join
            | _ => none) =
        [none, none, some "web-widget", some "shop"] := by
  constructor
  · have hfailed : (connect (start unreadable)).1.toOption.isNone := by
      decide +kernel
    cases hconnect : (connect (start unreadable)).1 with
    | ok connection => simp [hconnect, Except.toOption] at hfailed
    | error problem =>
        exact ⟨problem, rfl,
          ((connect_simulates unreadable).1 problem).mp hconnect⟩
  have hmade : (connect (start shop)).1.toOption.isSome := by decide +kernel
  cases hconnect : connect (start shop) with
  | mk found process =>
      cases found with
      | error problem => simp [hconnect, Except.toOption] at hmade
      | ok connection =>
          obtain ⟨hsame, -⟩ :=
            (connect_simulates shop).2.2 connection process hconnect
          exact ⟨connection, process, rfl, hsame shopOperations, by
            decide +kernel⟩

end Process

end Fragments
