import Fragments.CommandLine.Arguments
import Fragments.Markup.Table
import Fragments.Session

namespace Fragments

structure Report where
  output : String
  ending : Ending
  disk : Disk
  saved : Option Path

namespace Program

def usage : String := "
Usage: fragments [--verbose] build PATHS... [--name NAME] [--output FILE]
  [--format yaml|json]
       fragments [--verbose] mappings [--json]
       fragments [--verbose] suffix NAME KIND

Every command takes [--mappings-file FILE] with
  additional kinds and their tokens.
"

def logLevels : List String :=
  ["CRITICAL", "FATAL", "ERROR", "WARN", "WARNING", "INFO", "DEBUG", "NOTSET"]

def checkLogLevel (level : String) : Except Fault Unit :=
  let name := Text.upper level
  if logLevels.contains name then .ok ()
  else .error (.value s!"Unknown level: {Text.quote name}")

/-- The level of a verbose run is fixed; that of any other comes from the
settings. -/
def checkLogging (world : World) (verbose : Bool) : Except Ending Unit :=
  if verbose then .ok ()
  else do
    let settings ← orEnd (Settings.read world.environment world.disk)
    orEnd (orFault (checkLogLevel settings.logLevel))

def makeClient (world : World) (mappingsFile : Option Path) :
    Except Ending Client := do
  let settings ← orEnd (Settings.read world.environment world.disk)
  let client ← orEnd (Client.make world settings none none)
  match mappingsFile with
  | none => .ok client
  | some path => do
      let grown ← orEnd (MappingFile.addTo world.disk client.registry path)
      .ok { client with registry := grown }

def mappingsTable (mappings : List (String × List String)) : Table where
  title := some "Kind Mappings"
  header := ["Kind", "Tokens", "Suffix"]
  rows := mappings.map fun (kind, tokens) =>
    [kind, ", ".intercalate tokens, tokens.getLast?.getD ""]

def resourcesTable (list : ResourceList) : Table where
  title := none
  header := ["Kind", "Name", "API Version"]
  rows := list.items.map fun resource =>
    [resource.kind, resource.name.getD "", resource.apiVersion.getD ""]

def drawn (table : Table) : Except Fault String := table.rendered.map Table.draw

def checkFormat : Option String → Except Ending Unit
  | none => .ok ()
  | some format =>
      if (Format.ofName? format).isSome then .ok ()
      else .error (.complain s!"Invalid format: {format}"
        ["  Valid options: yaml, json"])

def defaultName (disk : Disk) (request : BuildRequest) : Option String :=
  match request.name.filter fun name => !name.isEmpty with
  | some name => some name
  | none => (request.paths.find? disk.isDirectory).map disk.resolvedName

def buildText (world : World) (request : BuildRequest) :
    Except Ending (ResourceList × String) := do
  checkFormat request.format
  let client ← makeClient world request.mappingsFile
  let paths := FragmentFile.collect world.disk request.paths
  let list ← orEnd (client.build world paths (defaultName world.disk request))
  let text ← orEnd (orFault (client.render list request.format))
  .ok (list, text)

def writtenLine (count : Nat) (place : String) : String :=
  s!"[green]✓[/green] Wrote {count} resources to: {place}"

def summary (list : ResourceList) (path : Path) : String × Ending :=
  match Markup.printLine (writtenLine list.items.length path.text) with
  | .error fault => ("", .crashed (.fault fault))
  | .ok line =>
      if list.items.isEmpty then (line, .done)
      else
        match drawn (resourcesTable list) with
        | .ok table => (line ++ table, .done)
        | .error fault => (line, .crashed (.fault fault))

def save (disk : Disk) (list : ResourceList) (text : String)
    (path : Path) : Report :=
  match disk.write path (Utf8.encode text.toList) with
  | .error fault => ⟨"", .crashed (.fault fault), disk, none⟩
  | .ok none =>
      ⟨"", .complain s!"Cannot write output file {path.text}" [], disk, none⟩
  | .ok (some after) =>
      let (printed, ending) := summary list path
      ⟨printed, ending, after, some path⟩

def runBuild (world : World) (request : BuildRequest) : Report :=
  match buildText world request with
  | .error ending => ⟨"", ending, world.disk, none⟩
  | .ok (list, text) =>
      match request.output with
      | none => ⟨text, .done, world.disk, none⟩
      | some path => save world.disk list text path

def mappingsJson (mappings : List (String × List String)) : Json :=
  .object (mappings.map fun (kind, tokens) => (kind, .array (tokens.map .text)))

def mappingsText (world : World) (mappingsFile : Option Path) (asJson : Bool) :
    Except Ending String := do
  let client ← makeClient world mappingsFile
  let mappings := client.registry.mappings
  if asJson then
    let text ← orEnd (orFault (Json.write (mappingsJson mappings)))
    .ok (text ++ "\n")
  else orEnd (orFault (drawn (mappingsTable mappings)))

def suffixText (world : World) (name kind : String)
    (mappingsFile : Option Path) :
    Except Ending String := do
  let client ← makeClient world mappingsFile
  .ok (client.registry.suffixed name (some kind) ++ "\n")

def printing (disk : Disk) : Except Ending String → Report
  | .ok text => ⟨text, .done, disk, none⟩
  | .error ending => ⟨"", ending, disk, none⟩

def perform (world : World) : Request → Report
  | .build request => runBuild world request
  | .mappings mappingsFile asJson =>
      printing world.disk (mappingsText world mappingsFile asJson)
  | .suffix name kind mappingsFile =>
      printing world.disk (suffixText world name kind mappingsFile)

def readRequest (world : World) (arguments : List String) :
    Except Ending Request := do
  let invocation ← Invocation.ofArguments arguments
  checkLogging world invocation.verbose
  Request.ofInvocation world.disk invocation

def run (world : World) (arguments : List String) : Report :=
  match readRequest world arguments with
  | .ok request => perform world request
  | .error .help => ⟨usage, .help, world.disk, none⟩
  | .error ending => ⟨"", ending, world.disk, none⟩

end Program

end Fragments
