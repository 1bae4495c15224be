import Fragments.Disk
import Fragments.Mapping.Registry
import Fragments.Yaml.Read

namespace Fragments.MappingFile

def reject (problem : MappingProblem) : Except Problem α :=
  .error (.failure (.mapping problem))

/-- A file arrives in pieces of this many bytes, and characters are looked at in
pieces of as many. -/
def pieceSize : Nat := 8192

/-- What bytes that are not text come to. Half a character at the end is only
judged on its own, so its position is counted from its own start. -/
def decodingFault (content : List UInt8) : Fault :=
  let piece := content.take pieceSize
  match Utf8.decode piece with
  | .ok _ => .beyond .laterPiece
  | .error failure =>
      if !failure.isPending piece then .undecodable failure.message
      else if content.length ≤ pieceSize then
        .undecodable ({ failure with position := 0 } : Utf8.Failure).message
      else .beyond .laterPiece

def decode (content : List UInt8) : Except Fault (List Char) :=
  match Utf8.decode content with
  | .ok chars => .ok chars
  | .error _ => .error (decodingFault content)

/-- Reads a text whose pieces are looked at one after the other: a character
that may not stand in it is met with its piece. -/
def readYaml (chars : List Char) : Except Yaml.Trouble Value :=
  let legible := chars.takeWhile Yaml.isAllowed
  if legible.length < chars.length && pieceSize ≤ legible.length then
    match Yaml.read legible with
    | .error (.fault _) => .error (.fault (.beyond .laterPiece))
    | _ => .error .malformed
  else Yaml.read chars

def document (disk : Disk) (path : Path) : Except Problem Value := do
  match ← orFault (disk.read path) with
  | none => reject (.unreadableFile path)
  | some content =>
      let chars ← orFault (decode content)
      match readYaml (Text.normaliseNewlines chars) with
      | .ok value => .ok value
      | .error .malformed => reject (.unreadableFile path)
      | .error (.fault fault) => .error (.fault fault)

def readEntry (path : Path) (value : Value) : Except Problem MappingEntry :=
  match value with
  | .mapping _ _ =>
      match MappingEntry.ofValue value with
      | .ok entry => .ok entry
      | .error _ => do
          let shown ← orFault value.display
          reject (.invalidEntry path shown)
  | _ => reject (.notMapping path)

def entriesOf (path : Path) (document : Value) :
    Except Problem (List MappingEntry) :=
  if document.isEmpty then .ok []
  else
    match document.apart with
    | .mapping _ entries =>
        match (Value.field? entries "mappings").map Value.apart with
        | none => .ok []
        | some (.list _ items) => items.mapM (readEntry path)
        | some _ => reject (.sectionNotList path)
    | _ => reject (.noSection path)

def load (disk : Disk) (path : Path) : Except Problem (List MappingEntry) := do
  entriesOf path (← document disk path)

def addTo (disk : Disk) (registry : Registry) (path : Path) :
    Except Problem Registry := do
  let entries ← load disk path
  registry.upsert (.entries (entries.map .ready))

end Fragments.MappingFile
