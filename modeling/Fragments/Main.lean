import Fragments.CommandLine.Program

open Fragments

namespace Fragments.Executable

def environment : IO Environment := do
  let .ok listed ← (IO.FS.readBinFile "/proc/self/environ").toBaseIO | return []
  match Utf8.decode listed.toList with
  | .error _ => return []
  | .ok chars =>
      let entries := (Text.splitAt (· == Char.ofNat 0) chars).filter
        fun entry => entry.contains '='
      return entries.map fun entry =>
        (String.ofList (entry.takeWhile (· != '=')),
          String.ofList ((entry.dropWhile (· != '=')).drop 1))

def locate (disk : Disk) (path : Path) : Location :=
  path.parts.foldl
    (fun location part => if part == ".." then location.dropLast
      else location ++ [part])
    (disk.start path)

def put (location : Location) (node : Node) (disk : Disk) : Disk :=
  { disk with root := Node.put node location disk.root }

def takeUpDirectory (location : Location) (disk : Disk) : Disk :=
  match disk.root.at? location with
  | some (.directory _) => disk
  | _ => put location (.directory []) disk

def takeUp (disk : Disk) (text : String) : IO Disk := do
  let whole := (← IO.currentDir) / text
  let path := Path.ofText text
  let location := locate disk path
  let parent := { path with parts := path.parts.dropLast }
  let mut disk := disk
  if ← ((← IO.currentDir) / parent.text).isDir then
    disk := takeUpDirectory (locate disk parent) disk
  if ← whole.isDir then
    disk := takeUpDirectory location disk
    for entry in ← whole.readDir do
      let inner := location ++ [entry.fileName]
      if (disk.root.at? inner).isNone then
        if ← entry.path.isDir then
          disk := put inner (.directory []) disk
        else if FragmentFile.isCollected entry.fileName then
          if let .ok content ← (IO.FS.readBinFile entry.path).toBaseIO then
            disk := put inner (.file content.toList) disk
    return disk
  else
    match ← (IO.FS.readBinFile whole).toBaseIO with
    | .ok content => return put location (.file content.toList) disk
    | .error _ => return disk

def pathsOf (arguments : List String) : List String :=
  let joined := arguments.filterMap fun argument =>
    (Sorted.splitValue argument).2
  let short := arguments.filterMap fun argument =>
    if Sorted.isSwitch argument then
      some (String.ofList (argument.toList.drop 2)) else none
  (arguments ++ joined ++ short).filter fun text =>
    !text.isEmpty && !text.toList.contains (Char.ofNat 0)

def snapshot (surrounding : Environment) (arguments : List String) :
    IO Disk := do
  let working := (Path.ofText (← IO.currentDir).toString).parts
  let mut disk := Disk.blank working
  for text in Settings.fileName.text :: pathsOf arguments do
    disk ← takeUp disk text
  match Settings.read surrounding disk with
  | .ok settings =>
      match settings.mappingsFile with
      | some path => takeUp disk path.text
      | none => return disk
  | .error _ => return disk

def store (report : Report) : IO Bool := do
  match report.saved with
  | none => return true
  | some path =>
      match report.disk.find? path with
      | some (.file content) =>
          match ←
            (IO.FS.writeBinFile path.text
              (ByteArray.mk content.toArray)).toBaseIO with
          | .ok _ => return true
          | .error _ => return false
      | _ => return true

def print (output : String) (ending : Ending) : IO UInt32 := do
  IO.print output
  match ending with
  | .failed printed => IO.eprint printed
  | .misused problem => IO.eprint s!"{Program.usage}\n{problem.message}\n"
  | .crashed (.fault (.value text)) => IO.eprintln text
  | .crashed (.rejected complaints) =>
      IO.eprintln (Complaint.summary complaints)
  | .crashed _ => IO.eprintln "The run ended early"
  | _ => pure ()
  return UInt32.ofNat ending.status

end Fragments.Executable

open Fragments.Executable in
def main (arguments : List String) : IO UInt32 := do
  let surrounding ← environment
  let disk ← snapshot surrounding arguments
  let report := Program.run ⟨surrounding, disk⟩ arguments
  if ← store report then print report.output report.ending
  else
    let path := (report.saved.map Path.text).getD ""
    print "" (.complain s!"Cannot write output file {path}" [])
