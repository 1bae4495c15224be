import Fragments.Enrichment
import Fragments.Json.Tree
import Fragments.Text.Utf8

namespace Fragments

structure Metadata where
  name : Option String
  namespace_ : Option String
  labels : Option (List (String × String))
  annotations : Option (List (String × String))
  extras : List (String × Value)
  deriving Inhabited

structure Resource where
  apiVersion : Option String
  kind : String
  metadata : Metadata
  extras : List (String × Value)
  deriving Inhabited

namespace Resource

abbrev Checked (α : Type) := Except (List Complaint) α

/-- The value of a part together with all complaints so far, or the complaints
of both. -/
def both (first : Checked α) (second : Checked β) : Checked (α × β) :=
  match first, second with
  | .ok a, .ok b => .ok (a, b)
  | .ok _, .error complaints => .error complaints
  | .error complaints, .ok _ => .error complaints
  | .error complaints, .error more => .error (complaints ++ more)

def notText : String := "Input should be a valid string"

def notUtf8 : String :=
  "Input should be a valid string, unable to parse raw data as a unicode string"

def textOf (numbers : Bool) : Scalar → Except String String
  | .text value => .ok value
  | .bytes value =>
      match Utf8.decode value with
      | .ok chars => .ok (String.ofList chars)
      | .error _ => .error notUtf8
  | .int value => if numbers then .ok (toString value) else .error notText
  | .float value => if numbers then .ok value.text else .error notText
  | _ => .error notText

def readText (numbers : Bool) (place : List String) : Value → Checked String
  | .scalar value =>
      match textOf numbers value with
      | .ok text => .ok text
      | .error reason => .error [⟨place, reason⟩]
  | _ => .error [⟨place, notText⟩]

def readOptional (numbers : Bool) (place : List String) :
    Option Value → Checked (Option String)
  | none => .ok none
  | some (.scalar .null) => .ok none
  | some value => (readText numbers place value).map some

/-- A key as it is named in a place. Only an integer of too many digits cannot
be shown. -/
def keyShown (key : Scalar) : String :=
  match key with
  | .text value => value
  | .bool value => if value then "1" else "0"
  | other =>
      match other.display with
      | .ok shown => shown
      | .error _ => "<unprintable int object>"

def readPair (place : List String) (entry : Scalar × Value) :
    Checked (String × String) :=
  let shown := keyShown entry.1
  let key : Checked String :=
    match textOf true entry.1 with
    | .ok text => .ok text
    | .error reason => .error [⟨place ++ [shown, "[key]"], reason⟩]
  both key (readText true (place ++ [shown]) entry.2)

def readAll (read : α → Checked β) : List α → Checked (List β)
  | [] => .ok []
  | item :: rest =>
      (both (read item) (readAll read rest)).map fun (value, values) =>
        value :: values

/-- A mapping from texts to texts that may be absent or null. Keys that become
equal are merged. -/
def readTexts (place : List String) :
    Option Value → Checked (Option (List (String × String)))
  | none => .ok none
  | some (.scalar .null) => .ok none
  | some (.mapping _ entries) =>
      (readAll (readPair place) entries).map fun pairs =>
        some (Entries.ofPairs (· == ·) pairs)
  | some _ => .error [⟨place, "Input should be a valid dictionary"⟩]

def readExtras (place : List String) (taken : List String)
    (entries : List (Scalar × Value)) :
    Checked (List (String × Value)) :=
  let rest := entries.filter fun (key, _) =>
    !(taken.any fun field => key == .text field)
  readAll
    (fun
      | (.text key, value) => .ok (key, value)
      | (key, _) =>
          .error [⟨place ++ [keyShown key], "Keys should be strings"⟩])
    rest

def metadataFields : List String :=
  ["name", "namespace", "labels", "annotations"]

def readMetadata (entries : List (Scalar × Value)) : Checked Metadata :=
  let field := Value.field? entries
  let place := fun name : String => ["metadata", name]
  (both (readOptional true (place "name") (field "name"))
    (both (readOptional true (place "namespace") (field "namespace"))
      (both (readTexts (place "labels") (field "labels"))
        (both (readTexts (place "annotations") (field "annotations"))
          (readExtras ["metadata"] metadataFields entries))))).map
    fun (name, namespace_, labels, annotations, extras) =>
      ⟨name, namespace_, labels, annotations, extras⟩

/-- The key that the API version stands under: the short form counts only
without the other. -/
def apiVersionKey (entries : List (Scalar × Value)) : String :=
  if (Value.field? entries "apiVersion").isNone &&
    (Value.field? entries "api_version").isSome
  then "api_version" else "apiVersion"

def readMetadataOf (fragment : Fragment) : Checked Metadata :=
  match Value.field? fragment.entries "metadata" with
  | none => .ok ⟨none, none, none, none, []⟩
  | some (.mapping _ entries) => readMetadata entries
  | some (.back _) => readMetadata fragment.entries
  | some _ =>
      .error
        [⟨["metadata"],
          "Input should be a valid dictionary or instance of ObjectMeta"⟩]

def readKind : Option Value → Checked String
  | none => .error [⟨["kind"], "Field required"⟩]
  | some value => readText false ["kind"] value

def read (fragment : Fragment) : Checked Resource :=
  let versionKey := apiVersionKey fragment.entries
  (both (readOptional false [versionKey]
    (Value.field? fragment.entries versionKey))
    (both (readKind (Value.field? fragment.entries "kind"))
      (both (readMetadataOf fragment)
        (readExtras [] [versionKey, "kind", "metadata"] fragment.entries)))).map
    fun (apiVersion, kind, metadata, extras) =>
      ⟨apiVersion, kind, metadata, extras⟩

def isTooLong : Scalar → Bool
  | .int value => Binary64.digitCount value.natAbs > Number.digitLimit
  | _ => false

def valueTooLong : Value → Bool
  | .scalar value => isTooLong value
  | _ => false

def hasTooLong (fragment : Fragment) : Bool :=
  let entries := Enrichment.metadataEntries fragment
  let inTexts := fun name : String =>
    match Value.field? entries name with
    | some (.mapping _ pairs) =>
        pairs.any fun (key, value) => isTooLong key || valueTooLong value
    | _ => false
  ["name", "namespace"].any (fun name =>
    ((Value.field? entries name).map valueTooLong).getD false) ||
    inTexts "labels" || inTexts "annotations"

def ofFragment (fragment : Fragment) (fileName : String) :
    Except Problem Resource :=
  if hasTooLong fragment then .error (.fault Number.tooLongToWrite)
  else
    match read fragment with
    | .ok resource => .ok resource
    | .error complaints =>
        .error
          (.failure (.invalidSyntax fileName (Complaint.summary complaints)))

def name (resource : Resource) : Option String := resource.metadata.name

def circular : Fault := .value "Circular reference detected (id repeated)"

def tooDeep : Fault := .value "Maximum serialization depth exceeded"

def depthLimit : Nat := 255

def dumpBytes (bytes : List UInt8) : Except Fault String :=
  match Utf8.decode bytes with
  | .ok chars => .ok (String.ofList chars)
  | .error failure =>
      .error
        (.undecodable (({ failure with count := 1 } : Utf8.Failure).describe
          "invalid utf-8"))

def dumpScalar : Scalar → Except Fault Json
  | .null => .ok .null
  | .bool value => .ok (.bool value)
  | .int value => .ok (.int value)
  | .float value => .ok (if value.isFinite then .float value else .null)
  | .text value => .ok (.text value)
  | .bytes value => (dumpBytes value).map .text
  | .date value => .ok (.text value.iso)
  | .moment value => .ok (.text value.isoZulu)

def dumpKey : Scalar → Except Fault String
  | .null => .ok "None"
  | .bool value => .ok (if value then "true" else "false")
  | .int value => Number.writeInteger value
  | .float value => .ok (if value.isFinite then value.text else "None")
  | .text value => .ok value
  | .bytes value => dumpBytes value
  | .date value => .ok value.iso
  | .moment value => .ok value.isoZulu

def dumpLeaf (levels : Nat) (value : Scalar) : Except Fault Json :=
  below levels tooDeep (dumpScalar value)

mutual

def dumpIn (levels : Nat) : Value → Except Fault Json
  | .scalar value => dumpLeaf levels value
  | .list _ items => below levels tooDeep do
      .ok (.array (← dumpItems (levels - 1) items))
  | .mapping _ entries => below levels tooDeep do
      .ok (.object (Json.uniqueEntries (← dumpEntries (levels - 1) entries)))
  | .set _ elements => below levels tooDeep do
      .ok (.array (← elements.mapM (dumpLeaf (levels - 1))))
  | .pair first second => below levels tooDeep do
      .ok (.array [← dumpIn (levels - 1) first, ← dumpIn (levels - 1) second])
  | .back _ => .error circular

def dumpItems (levels : Nat) : List Value → Except Fault (List Json)
  | [] => .ok []
  | item :: rest => do
      let dumped ← dumpIn levels item
      .ok (dumped :: (← dumpItems levels rest))

def dumpEntries (levels : Nat) :
    List (Scalar × Value) → Except Fault (List (String × Json))
  | [] => .ok []
  | (key, value) :: rest => do
      let dumpedKey ← dumpKey key
      let dumped ← dumpIn levels value
      .ok ((dumpedKey, dumped) :: (← dumpEntries levels rest))

end

def dump (value : Value) : Except Fault Json := dumpIn depthLimit value

def dumpExtras : List (String × Value) → Except Fault (List (String × Json))
  | [] => .ok []
  | (key, value) :: rest => do
      let dumped ← dump value
      .ok ((key, dumped) :: (← dumpExtras rest))

def textField (key : String) (value : Option String) : List (String × Json) :=
  value.toList.map fun text => (key, .text text)

def textsField (key : String) (value : Option (List (String × String))) :
    List (String × Json) :=
  value.toList.map fun pairs =>
    (key, .object (pairs.map fun (name, text) => (name, .text text)))

def dumpMetadata (metadata : Metadata) : Except Fault Json := do
  let extras ← dumpExtras metadata.extras
  .ok (.object
    (textField "name" metadata.name ++
      textField "namespace" metadata.namespace_ ++
      textsField "labels" metadata.labels ++
      textsField "annotations" metadata.annotations ++ extras))

def toJson (resource : Resource) : Except Fault Json := do
  let metadata ← dumpMetadata resource.metadata
  let extras ← dumpExtras resource.extras
  .ok (.object
    (textField "apiVersion" resource.apiVersion ++
      ("kind", .text resource.kind) ::
      ("metadata", metadata) :: extras))

end Resource

end Fragments
