import Fragments.Disk
import Fragments.EnvFile
import Fragments.Text.Case
import Fragments.Versioning

namespace Fragments

inductive Format
  | yaml
  | json
  deriving DecidableEq, Inhabited

def Format.name : Format → String
  | yaml => "yaml"
  | json => "json"

def Format.ofName? (name : String) : Option Format :=
  if name = "yaml" then some .yaml else if name = "json" then
    some .json else none

/-- Environment variables in their order; a later one of the same name is in
force. -/
abbrev Environment := List (String × String)

structure Settings where
  defaultAppName : String
  mappingsFile : Option Path
  outputFormat : Format
  logLevel : String
  version : Group → String
  deriving Inhabited

namespace Settings

def variablePrefix : String := "kubefrag_"

def fileName : Path := Path.ofText ".env"

/-- The value of a setting among variables: the last one whose name, in lower
case, is that of the setting. One without a value does not count. -/
def among (assigned : List (String × Option String)) (setting : String) :
    Option String :=
  let matching := assigned.filter fun (name, _) =>
    Text.lower name == variablePrefix ++ setting
  matching.getLast?.bind Prod.snd

def fileVariables (environment : Environment) (disk : Disk) :
    Except Fault (List (String × Option String)) :=
  match disk.find? fileName with
  | some (.file content) =>
      match Utf8.decode content with
      | .ok chars =>
          .ok (EnvFile.read environment (Text.normaliseNewlines chars))
      | .error failure => .error (.undecodable failure.message)
  | _ => .ok []

def ofValues (value : String → Option String) : Except Problem Settings :=
  let name := (value "default_app_name").getD "app"
  let format := (value "output_format").getD "yaml"
  let nameComplaints :=
    if name.isEmpty then
      [Complaint.mk ["default_app_name"]
        "String should have at least 1 character"]
    else []
  match nameComplaints, Format.ofName? format with
  | [], some outputFormat =>
      .ok
        { defaultAppName := name
          mappingsFile := (value "mappings_file").map Path.ofText
          outputFormat
          logLevel := (value "log_level").getD "WARNING"
          version := fun group =>
            (value group.setting).getD group.defaultVersion }
  | complaints, some _ => .error (.rejected complaints)
  | complaints, none =>
      .error
        (.rejected (complaints ++
          [⟨["output_format"], "Input should be 'yaml' or 'json'"⟩]))

def read (environment : Environment) (disk : Disk) :
    Except Problem Settings := do
  let assigned ← orFault (fileVariables environment disk)
  let direct := environment.map fun (name, value) => (name, some value)
  ofValues fun setting => (among direct setting).or (among assigned setting)

def versioning (settings : Settings) : Versioning := ⟨settings.version, []⟩

end Settings

end Fragments
