import Fragments.CommandLine.Ending
import Fragments.Disk

namespace Fragments

inductive Switch
  | help
  | verbose
  | name
  | output
  | format
  | mappingsFile
  | json
  deriving DecidableEq

namespace Switch

def long : Switch → String
  | help => "--help"
  | verbose => "--verbose"
  | name => "--name"
  | output => "--output"
  | format => "--format"
  | mappingsFile => "--mappings-file"
  | json => "--json"

def short? : Switch → Option Char
  | help => none
  | verbose => some 'v'
  | name => some 'n'
  | output => some 'o'
  | format => some 'f'
  | mappingsFile => some 'm'
  | json => none

def takesValue : Switch → Bool
  | help => false
  | verbose => false
  | json => false
  | _ => true

end Switch

/-- Arguments sorted into switches with their values and the others. A repeated
switch keeps its first place and its last value. -/
structure Sorted where
  switches : List (Switch × String)
  others : List String
  deriving DecidableEq

namespace Sorted

def empty : Sorted := ⟨[], []⟩

def set (sorted : Sorted) (switch : Switch) (value : String) : Sorted :=
  { sorted with switches :=
    Entries.assign (· == ·) switch value sorted.switches }

def setAll (sorted : Sorted) (switches : List (Switch × String)) : Sorted :=
  switches.foldl (fun sorted (switch, value) => sorted.set switch value) sorted

def add (sorted : Sorted) (others : List String) : Sorted :=
  { sorted with others := sorted.others ++ others }

def value? (sorted : Sorted) (switch : Switch) : Option String :=
  Entries.get? sorted.switches switch

def has (sorted : Sorted) (switch : Switch) : Bool :=
  (sorted.value? switch).isSome

structure Stated where
  settled : List (Switch × String)
  owing : Option Switch

def splitValue (argument : String) : String × Option String :=
  let chars := argument.toList
  match chars.dropWhile (· != '=') with
  | [] => (argument, none)
  | _ :: value =>
      (String.ofList (chars.takeWhile (· != '=')), some (String.ofList value))

def readLong (switch : Switch) (value : Option String) : Except Ending Stated :=
  match switch.takesValue, value with
  | true, some value => .ok ⟨[(switch, value)], none⟩
  | true, none => .ok ⟨[], some switch⟩
  | false, some _ => .error (.misused (.unexpectedValue switch.long))
  | false, none => .ok ⟨[(switch, "")], none⟩

/-- Letters behind one dash; the first that takes a value takes what is left as
its value. -/
def readShort (allowed : List Switch) : List Char → Except Ending Stated
  | [] => .ok ⟨[], none⟩
  | c :: rest =>
      match allowed.find? fun switch => switch.short? == some c with
      | none => .error (.misused (.unknownSwitch (String.ofList ['-', c])))
      | some switch =>
          if switch.takesValue then
            if rest.isEmpty then .ok ⟨[], some switch⟩
            else .ok ⟨[(switch, String.ofList rest)], none⟩
          else do
            let stated ← readShort allowed rest
            .ok { stated with settled := (switch, "") :: stated.settled }

def readSwitch (allowed : List Switch) (argument : String) :
    Except Ending Stated :=
  let (written, value) := splitValue argument
  match allowed.find? fun switch => switch.long == written with
  | some switch => readLong switch value
  | none =>
      if argument.startsWith "--" then
        .error (.misused (.unknownSwitch written))
      else readShort allowed (argument.toList.drop 1)

def isSwitch (argument : String) : Bool :=
  argument.startsWith "-" && argument != "-"

/-- Sorts arguments. `owing` is a switch that waits for its value; without
`interspersed` no switch is looked for behind another argument. -/
def sortFrom (allowed : List Switch) (interspersed : Bool) (sorted : Sorted) :
    Option Switch → List String → Except Ending Sorted
  | none, [] => .ok sorted
  | some switch, [] => .error (.misused (.missingValue switch.long))
  | some switch, value :: rest =>
      sortFrom allowed interspersed (sorted.set switch value) none rest
  | none, argument :: rest =>
      if argument == "--" then .ok (sorted.add rest)
      else if isSwitch argument then do
        let stated ← readSwitch allowed argument
        sortFrom allowed interspersed (sorted.setAll stated.settled)
          stated.owing rest
      else if interspersed then
        sortFrom allowed interspersed (sorted.add [argument]) none rest
      else .ok (sorted.add (argument :: rest))

def ofArguments (allowed : List Switch) (interspersed : Bool)
    (arguments : List String) :
    Except Ending Sorted := do
  let sorted ← sortFrom (.help :: allowed) interspersed empty none arguments
  if sorted.has .help then .error .help else .ok sorted

end Sorted

inductive CommandName
  | build
  | mappings
  | suffix
  deriving DecidableEq

def CommandName.ofText? (name : String) : Option CommandName :=
  if name = "build" then some .build
  else if name = "mappings" then some .mappings
  else if name = "suffix" then some .suffix
  else none

structure Invocation where
  verbose : Bool
  command : CommandName
  arguments : List String
  deriving DecidableEq

def Invocation.ofArguments (arguments : List String) :
    Except Ending Invocation := do
  if arguments.isEmpty then .error (.misused .noArguments)
  else
    let sorted ← Sorted.ofArguments [.verbose] false arguments
    match sorted.others with
    | [] => .error (.misused .noCommand)
    | name :: rest =>
        match CommandName.ofText? name with
        | some command => .ok ⟨sorted.has .verbose, command, rest⟩
        | none => .error (.misused (.unknownCommand name))

structure BuildRequest where
  paths : List Path
  name : Option String
  output : Option Path
  format : Option String
  mappingsFile : Option Path
  deriving DecidableEq

inductive Request
  | build (request : BuildRequest)
  | mappings (mappingsFile : Option Path) (asJson : Bool)
  | suffix (name kind : String) (mappingsFile : Option Path)
  deriving DecidableEq

namespace Request

def existing (disk : Disk) (argument : String) : Except Ending Node := do
  match ← orEnd (orFault (disk.findText? argument)) with
  | some node => .ok node
  | none => .error (.misused (.leadsNowhere argument))

def checkSwitch (disk : Disk) (switch : Switch) (value : String) :
    Except Ending Unit :=
  match switch with
  | .mappingsFile => do
      let node ← existing disk value
      if node.isDirectory then .error (.misused (.directory value)) else .ok ()
  | .output => orEnd (orFault (Disk.checkName (Path.ofText value)))
  | _ => .ok ()

def switches : CommandName → List Switch
  | .build => [.name, .output, .format, .mappingsFile]
  | .mappings => [.mappingsFile, .json]
  | .suffix => [.mappingsFile]

def ofInvocation (disk : Disk) (invocation : Invocation) :
    Except Ending Request := do
  let sorted ← Sorted.ofArguments (switches invocation.command) true
      invocation.arguments
  sorted.switches.forM fun (switch, value) => checkSwitch disk switch value
  let path? := fun switch => (sorted.value? switch).map Path.ofText
  match invocation.command, sorted.others with
  | .build, [] => .error (.misused (.missingArgument "PATHS"))
  | .build, paths => do
      paths.forM fun path => discard (existing disk path)
      .ok (.build
        { paths := paths.map Path.ofText
          name := sorted.value? .name
          output := path? .output
          format := sorted.value? .format
          mappingsFile := path? .mappingsFile })
  | .mappings, [] => .ok (.mappings (path? .mappingsFile) (sorted.has .json))
  | .mappings, extra :: _ => .error (.misused (.extraArgument extra))
  | .suffix, [name, kind] => .ok (.suffix name kind (path? .mappingsFile))
  | .suffix, _ :: _ :: extra :: _ => .error (.misused (.extraArgument extra))
  | .suffix, [] => .error (.misused (.missingArgument "NAME"))
  | .suffix, [_] => .error (.misused (.missingArgument "KIND"))

end Request

end Fragments
