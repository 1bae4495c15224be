import Fragments.Session

namespace Fragments

abbrev Registry.Handle := Nat

open Registry (Handle)

inductive Call
  | upsert (batch : Batch)
  | kindOf (token : Option String)
  | tokenOf (kind : Option String)
  | suffix (name : String) (kind : Option String)
  | knownTokens
  | holds (token : Option String)
  | size
  | mappings
  | enrich (fragment : Fragment) (file : FileName) (versioning : Versioning)
    (appName : String)
  | build (versioning : Versioning) (defaultName : String) (paths : List Path)

/-- An enriched fragment comes with the problem that ended its enrichment early,
if one did. -/
inductive Reply
  | done
  | text (found : Option String)
  | texts (found : List String)
  | flag (holds : Bool)
  | count (number : Nat)
  | listing (mappings : List (String × List String))
  | enriched (fragment : Fragment) (problem : Option Problem)
  | built (list : ResourceList)
  deriving Inhabited

def Call.answer (disk : Disk) (registry : Registry) :
    Call → Except Problem Reply × Registry
  | upsert batch =>
      match registry.upsert batch with
      | .ok grown => (.ok .done, grown)
      | .error problem => (.error problem, registry)
  | kindOf token => (.ok (.text (token.bind registry.kindOf?)), registry)
  | tokenOf kind => (.ok (.text (kind.bind registry.tokenOf?)), registry)
  | suffix name kind =>
      (.ok (.text (some (registry.suffixed name kind))), registry)
  | knownTokens => (.ok (.texts registry.knownTokens), registry)
  | holds token =>
      (.ok (.flag ((token.map registry.holds).getD false)), registry)
  | size => (.ok (.count registry.size), registry)
  | mappings => (.ok (.listing registry.mappings), registry)
  | enrich fragment file versioning appName =>
      let (enriched, problem) :=
        Enrichment.enrich fragment file appName versioning registry
      (.ok (.enriched enriched problem), registry)
  | build versioning defaultName paths =>
      ((ResourceList.build ⟨registry, versioning, defaultName, disk⟩ paths).map
        .built, registry)

structure Process where
  world : World
  settings : Option Settings
  shared : Option Handle
  registries : Handle → Registry
  made : Nat
  own : List Handle

namespace Process

def start (world : World) : Process :=
  ⟨world, none, none, fun _ => .empty, 0, []⟩

/-- What is kept between calls, whatever handle the shared registry has. -/
def session (process : Process) : Session :=
  ⟨process.settings, process.shared.map process.registries⟩

def store (handle : Handle) (registry : Registry)
    (process : Process) : Process :=
  { process with
    registries := fun other => if other = handle then registry
      else process.registries other }

def make (registry : Registry) (process : Process) : Handle × Process :=
  (process.made,
    { process.store process.made registry with made := process.made + 1 })

def getSettings (process : Process) : Except Problem Settings × Process :=
  let (found, after) := process.session.getSettings process.world
  (found, { process with settings := after.settings })

def reloadSettings (process : Process) : Except Problem Settings × Process :=
  let (found, after) := process.session.reloadSettings process.world
  (found, { process with settings := after.settings })

def getShared (process : Process) : Except Problem Handle × Process :=
  match process.shared with
  | some handle => (.ok handle, process)
  | none =>
      match process.session.getRegistry process.world with
      | (.error problem, after) =>
          (.error problem, { process with settings := after.settings })
      | (.ok registry, after) =>
          let (handle, process) :=
            make registry { process with settings := after.settings }
          (.ok handle, { process with shared := some handle })

def reset (process : Process) : Process := { process with shared := none }

def resolve (given : Option Handle) (process : Process) :
    Except Problem Handle × Process :=
  match given with
  | some handle => (.ok handle, process)
  | none => process.getShared

def call (given : Option Handle) (call : Call) (process : Process) :
    Except Problem Reply × Process :=
  match process.resolve given with
  | (.error problem, after) => (.error problem, after)
  | (.ok handle, after) =>
      let (reply, registry) :=
        call.answer after.world.disk (after.registries handle)
      (reply, after.store handle registry)

def upsertMappings (batch : Batch) (given : Option Handle) :
    Process → Except Problem Reply × Process :=
  call given (.upsert batch)

def suffixForKind (name : String) (kind : Option String)
    (given : Option Handle) :
    Process → Except Problem Reply × Process :=
  call given (.suffix name kind)

def enrichFragment (fragment : Fragment) (file : FileName)
    (versioning : Versioning) (appName : String) (given : Option Handle) :
    Process → Except Problem Reply × Process :=
  call given (.enrich fragment file versioning appName)

structure Service where
  registry : Handle

def openService (given : Option Handle) (process : Process) :
    Except Problem Service × Process :=
  let (found, after) := process.resolve given
  (found.map Service.mk, after)

def Service.build (service : Service) (versioning : Versioning)
    (defaultName : String) (paths : List Path) :
    Process → Except Problem Reply × Process :=
  call (some service.registry) (.build versioning defaultName paths)

def buildResourceList (versioning : Versioning) (defaultName : String)
    (paths : List Path) (given : Option Handle) (process : Process) :
    Except Problem Reply × Process :=
  match process.openService given with
  | (.error problem, after) => (.error problem, after)
  | (.ok service, after) => service.build versioning defaultName paths after

/-- What can happen in a process. A call names one of the registries that
callers have made, by its place among them, or none. -/
inductive Step
  | setEnvironment (environment : Environment)
  | setDisk (disk : Disk)
  | getSettings
  | reloadSettings
  | getShared
  | reset
  | make (seed : Batch)
  | call (given : Option Nat) (call : Call)

/-- The process after a step. A seed that is rejected makes no registry, and a
place without one cannot be named. -/
def step (process : Process) : Step → Process
  | .setEnvironment environment =>
      { process with world := { process.world with environment } }
  | .setDisk disk => { process with world := { process.world with disk } }
  | .getSettings => process.getSettings.2
  | .reloadSettings => process.reloadSettings.2
  | .getShared => process.getShared.2
  | .reset => process.reset
  | .make seed =>
      match Registry.empty.upsert seed with
      | .error _ => process
      | .ok registry =>
          let (handle, after) := process.make registry
          { after with own := after.own ++ [handle] }
  | .call none call => (process.call none call).2
  | .call (some place) call =>
      match process.own[place]? with
      | some handle => (process.call (some handle) call).2
      | none => process

def run (process : Process) (steps : List Step) : Process :=
  steps.foldl step process

structure Connection where
  settings : Settings
  registry : Handle
  versioning : Versioning

def connect (process : Process) : Except Problem Connection × Process :=
  match process.getSettings with
  | (.error problem, after) => (.error problem, after)
  | (.ok settings, after) =>
      match Client.make after.world settings none none with
      | .error problem => (.error problem, after)
      | .ok client =>
          let (handle, after) := after.make client.registry
          (.ok ⟨client.settings, handle, client.versioning⟩, after)

inductive Operation
  | upsert (batch : Batch)
  | kindOf (token : Option String)
  | tokenOf (kind : Option String)
  | suffix (name : String) (kind : Option String)
  | build (paths : List Path) (defaultName : Option String)

def Connection.client (connection : Connection) (process : Process) : Client :=
  ⟨connection.settings, process.registries connection.registry,
    connection.versioning⟩

def Connection.perform (connection : Connection) (operation : Operation)
    (process : Process) :
    Except Problem Reply × Process :=
  let client := connection.client process
  match operation with
  | .upsert batch =>
      match client.upsert batch with
      | .error problem => (.error problem, process)
      | .ok grown =>
          (.ok .done, process.store connection.registry grown.registry)
  | .kindOf token => (.ok (.text (token.bind client.registry.kindOf?)), process)
  | .tokenOf kind => (.ok (.text (kind.bind client.registry.tokenOf?)), process)
  | .suffix name kind =>
      (.ok (.text (some (client.registry.suffixed name kind))), process)
  | .build paths defaultName =>
      ((client.build process.world paths defaultName).map .built, process)

def nameOr (settings : Settings) (name : Option String) : String :=
  (name.filter fun name => !name.isEmpty).getD settings.defaultAppName

def perform (operation : Operation) (process : Process) :
    Except Problem Reply × Process :=
  match operation with
  | .upsert batch => process.upsertMappings batch none
  | .kindOf token => process.call none (.kindOf token)
  | .tokenOf kind => process.call none (.tokenOf kind)
  | .suffix name kind => process.suffixForKind name kind none
  | .build paths defaultName =>
      match process.getSettings with
      | (.error problem, after) => (.error problem, after)
      | (.ok settings, after) =>
          after.buildResourceList settings.versioning
            (nameOr settings defaultName) paths none

end Process

end Fragments
