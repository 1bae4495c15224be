import Fragments.Data.Value
import Fragments.Failure
import Fragments.Path
import Fragments.Text.Utf8

namespace Fragments

inductive Node
  | file (content : List UInt8)
  | directory (entries : List (String × Node))
  deriving Inhabited

abbrev Location := List String

namespace Node

def at? : Node → Location → Option Node
  | node, [] => some node
  | file _, _ :: _ => none
  | directory entries, name :: rest =>
      match Entries.get? entries name with
      | some node => node.at? rest
      | none => none

def isDirectory : Node → Bool
  | directory _ => true
  | file _ => false

def isFile : Node → Bool
  | file _ => true
  | directory _ => false

/-- The tree with `node` at a location; directories on the way are made as
needed. -/
def put (node : Node) : Location → Node → Node
  | [], _ => node
  | name :: rest, directory entries =>
      let inner := (Entries.get? entries name).getD (directory [])
      directory (Entries.assign (· == ·) name (put node rest inner) entries)
  | name :: rest, file _ => directory [(name, put node rest (directory []))]

end Node

structure Disk where
  root : Node
  working : Location
  deriving Inhabited

namespace Disk

def blank (working : Location) : Disk :=
  ⟨Node.put (.directory []) working (.directory []), working⟩

def step? (disk : Disk) (location : Location) (part : String) :
    Option Location :=
  match disk.root.at? location with
  | some (.directory entries) =>
      if part = ".." then some location.dropLast
      else if (Entries.get? entries part).isSome then some (location ++ [part])
      else none
  | _ => none

def start (disk : Disk) (path : Path) : Location :=
  if path.root.isEmpty then disk.working else []

def locate? (disk : Disk) (path : Path) : Option Location :=
  path.parts.foldlM disk.step? (disk.start path)

/-- What a path leads to. A name with a zero character leads nowhere. -/
def find? (disk : Disk) (path : Path) : Option Node :=
  match disk.locate? path with
  | some location => disk.root.at? location
  | none => none

def isDirectory (disk : Disk) (path : Path) : Bool :=
  ((disk.find? path).map Node.isDirectory).getD false

def isFile (disk : Disk) (path : Path) : Bool :=
  ((disk.find? path).map Node.isFile).getD false

def list (disk : Disk) (path : Path) : List (String × Node) :=
  match disk.find? path with
  | some (.directory entries) => entries
  | _ => []

def checkName (path : Path) : Except Fault Unit :=
  if path.text.toList.contains (Char.ofNat 0) then
    .error (.value "embedded null byte") else .ok ()

def read (disk : Disk) (path : Path) : Except Fault (Option (List UInt8)) := do
  checkName path
  match disk.find? path with
  | some (.file content) => .ok (some content)
  | _ => .ok none

/-- What a path leads to as it is written: an empty text leads nowhere, and one
with a slash or a dot at its end has to lead to a directory. -/
def findText? (disk : Disk) (text : String) : Except Fault (Option Node) := do
  let path := Path.ofText text
  checkName path
  let needsDirectory :=
    ["", "."].contains ((Text.split '/' text).getLast?.getD "")
  let node := if text.isEmpty then none else disk.find? path
  .ok (node.filter fun node => !needsDirectory || node.isDirectory)

def maxNameSize : Nat := 255

/-- Where a file at this path would be: an existing node, or a new name in an
existing directory. -/
def target? (disk : Disk) (path : Path) : Option Location :=
  match disk.locate? path with
  | some location => some location
  | none =>
      match path.parts.getLast? with
      | none => none
      | some name =>
          if name = ".." || maxNameSize < name.utf8ByteSize then none
          else
            match disk.locate? { path with parts := path.parts.dropLast } with
            | some parent =>
                if ((disk.root.at? parent).map Node.isDirectory).getD false then
                  some (parent ++ [name])
                else none
            | none => none

/-- The whole file is written or nothing is. A device that fails on the way is
not described. -/
def write (disk : Disk) (path : Path) (content : List UInt8) :
    Except Fault (Option Disk) := do
  checkName path
  match disk.target? path with
  | none => .ok none
  | some location =>
      if ((disk.root.at? location).map Node.isDirectory).getD false then
        .ok none
      else
        .ok (some
          { disk with root := Node.put (.file content) location disk.root })

def place (disk : Disk) (path : Path) (node : Node) : Disk :=
  { disk with root := Node.put node (disk.start path ++ path.parts) disk.root }

def resolvedName (disk : Disk) (path : Path) : String :=
  match disk.locate? path with
  | some location => location.getLast?.getD ""
  | none => path.name

end Disk

end Fragments
