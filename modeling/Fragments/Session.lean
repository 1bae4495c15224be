import Fragments.Mapping.Catalog
import Fragments.Mapping.File
import Fragments.ResourceList

namespace Fragments

structure World where
  environment : Environment
  disk : Disk
  deriving Inhabited

structure Session where
  settings : Option Settings
  registry : Option Registry
  deriving Inhabited

namespace Session

def fresh : Session := ⟨none, none⟩

def getSettings (world : World) (session : Session) :
    Except Problem Settings × Session :=
  match session.settings with
  | some settings => (.ok settings, session)
  | none =>
      match Settings.read world.environment world.disk with
      | .ok settings =>
          (.ok settings, { session with settings := some settings })
      | .error problem => (.error problem, session)

def reloadSettings (world : World) (session : Session) :
    Except Problem Settings × Session :=
  getSettings world { session with settings := none }

def configuredRegistry (world : World) (settings : Settings) :
    Except Problem Registry :=
  match settings.mappingsFile with
  | some path => MappingFile.addTo world.disk Catalog.registry path
  | none => .ok Catalog.registry

def getRegistry (world : World) (session : Session) :
    Except Problem Registry × Session :=
  match session.registry with
  | some registry => (.ok registry, session)
  | none =>
      match session.getSettings world with
      | (.error problem, after) => (.error problem, after)
      | (.ok settings, after) =>
          match configuredRegistry world settings with
          | .ok registry =>
              (.ok registry, { after with registry := some registry })
          | .error problem => (.error problem, after)

def reset (session : Session) : Session := { session with registry := none }

def upsert (world : World) (batch : Batch) (session : Session) :
    Except Problem Registry × Session :=
  match session.getRegistry world with
  | (.error problem, after) => (.error problem, after)
  | (.ok registry, after) =>
      match registry.upsert batch with
      | .ok grown => (.ok grown, { after with registry := some grown })
      | .error problem => (.error problem, after)

def build (world : World) (versioning : Versioning) (defaultName : String)
    (paths : List Path) (session : Session) :
    Except Problem ResourceList × Session :=
  match session.getRegistry world with
  | (.error problem, after) => (.error problem, after)
  | (.ok registry, after) =>
      (ResourceList.build ⟨registry, versioning, defaultName, world.disk⟩ paths,
        after)

end Session

structure Client where
  settings : Settings
  registry : Registry
  versioning : Versioning
  deriving Inhabited

namespace Client

def make (world : World) (settings : Settings) (registry : Option Registry)
    (versioning : Option Versioning) : Except Problem Client := do
  let registry ←
    match registry with
    | some registry => pure registry
    | none => Session.configuredRegistry world settings
  .ok ⟨settings, registry, versioning.getD settings.versioning⟩

def upsert (batch : Batch) (client : Client) : Except Problem Client := do
  .ok { client with registry := ← client.registry.upsert batch }

def defaultNameOr (client : Client) (name : Option String) : String :=
  match name with
  | some name => if name.isEmpty then client.settings.defaultAppName else name
  | none => client.settings.defaultAppName

def build (world : World) (client : Client) (paths : List Path)
    (defaultName : Option String) :
    Except Problem ResourceList :=
  ResourceList.build
    ⟨client.registry, client.versioning, client.defaultNameOr defaultName,
      world.disk⟩ paths

def render (client : Client) (list : ResourceList) (format : Option String) :
    Except Fault String :=
  match format with
  | some format =>
      if format.isEmpty then list.render client.settings.outputFormat
      else list.serialize format
  | none => list.render client.settings.outputFormat

end Client

end Fragments
