import Fragments.Data.Display
import Fragments.Disk
import Fragments.Failure
import Fragments.FileName
import Fragments.Json.Reader
import Fragments.Yaml.Read

namespace Fragments.FragmentFile

def unreadable (path : Path) (problem : ReadProblem) : Problem :=
  .failure (.unreadable path problem)

def isJson (extension : String) : Bool := Text.lower extension == "json"

def decodeJson (path : Path) (chars : List Char) : Except Problem Value :=
  if chars.all Text.isBlank then .ok .null
  else
    match Json.read chars with
    | .ok json => .ok json.toValue
    | .error (.syntactic reason line column) =>
        .error (unreadable path (.json reason line column))
    | .error (.fault fault) => .error (.fault fault)

def decodeYaml (path : Path) (chars : List Char) : Except Problem Value :=
  match Yaml.read chars with
  | .ok value => .ok value
  | .error .malformed => .error (unreadable path .yaml)
  | .error (.fault fault) => .error (.fault fault)

def decode (path : Path) (extension : String) (chars : List Char) :
    Except Problem Value :=
  if isJson extension then decodeJson path chars else decodeYaml path chars

def ofValue (path : Path) : Value → Except Problem Fragment
  | .scalar .null => .ok Fragment.empty
  | .mapping label entries => .ok ⟨label, entries⟩
  | other => .error (unreadable path (.notMapping other.typeName))

def readText (disk : Disk) (path : Path) : Except Problem (List Char) := do
  match ← orFault (disk.read path) with
  | none => .error (unreadable path .noFile)
  | some content =>
      match Utf8.decode content with
      | .ok chars => .ok (Text.normaliseNewlines chars)
      | .error _ => .error (unreadable path .notUtf8)

def read (disk : Disk) (path : Path) (extension : Option String) :
    Except Problem Fragment := do
  let chars ← readText disk path
  ofValue path (← decode path (extension.getD path.extension) chars)

def parseName (fileName : String) : Except Problem FileName :=
  match FileName.parse? fileName with
  | some parsed => .ok parsed
  | none => .error (.failure (.nameFormat (Path.ofText fileName).name))

def extensions : List String := [".yaml", ".yml", ".json"]

def isCollected (name : String) : Bool :=
  extensions.contains (Text.lower (String.ofList (Path.suffixOf name.toList)))

def ofDirectory (disk : Disk) (path : Path) : List Path :=
  let names := (disk.list path).filterMap fun (name, node) =>
    if node.isFile && isCollected name then some name else none
  (names.mergeSort fun a b => !decide (b < a)).map path.child

def collect (disk : Disk) (paths : List Path) : List Path :=
  paths.flatMap fun path => if disk.isDirectory path then ofDirectory disk path
    else [path]

end Fragments.FragmentFile
