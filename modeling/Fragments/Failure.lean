import Fragments.Path
import Fragments.Text.Quote

namespace Fragments

/-- What lies beyond this library. A run that meets it ends there, and nothing
is said about it. -/
inductive Limit
  /-- Half of a pair of surrogates, which is no character. -/
  | halfCharacter
  /-- Containers in each other, deeper than a stack can be sure to take. -/
  | nesting
  /-- A mistake behind the first pieces of a file that is read piece by
  piece. -/
  | laterPiece
  /-- A style whose parameters are looked at when it is closed or printed. -/
  | styleParameters
  deriving DecidableEq

/-- What ends a run without being reported as a problem of a fragment, a mapping
or a setting. -/
inductive Fault
  /-- A value outside what can be represented, with an explanation. -/
  | value (text : String)
  /-- Bytes that are not text. -/
  | undecodable (text : String)
  /-- A word that is not among those with a meaning. -/
  | unknownWord
  /-- A text that lacks the shape its tag promises. -/
  | noMatch
  /-- A text that is too short. -/
  | tooShort
  /-- A number that does not fit. -/
  | overflow
  /-- A value of a kind that the operation does not take. -/
  | wrongType
  /-- A closing style mark without its opening one. -/
  | strayMark
  | beyond (limit : Limit)
  deriving DecidableEq, Inhabited

def Fault.isBeyond : Fault → Bool
  | beyond _ => true
  | _ => false

inductive MappingProblem
  | malformedEntry (shown : String)
  | blankEntry (kind : String) (tokens : List String)
  | unreadableFile (path : Path)
  | noSection (path : Path)
  | sectionNotList (path : Path)
  | notMapping (path : Path)
  | invalidEntry (path : Path) (shown : String)
  deriving DecidableEq

inductive ReadProblem
  | noFile
  | notUtf8
  | json (reason : String) (line column : Nat)
  | yaml
  | notMapping (observed : String)
  deriving DecidableEq

inductive Failure
  | mapping (problem : MappingProblem)
  | nameFormat (fileName : String)
  | unknownType (token fileName : String) (known : List String)
  | missingKind (fileName : String)
  | metadataType (observed : String) (fileName : Option String)
  | invalidSyntax (fileName cause : String)
  | unreadable (path : Path) (problem : ReadProblem)
  deriving DecidableEq

inductive Details
  | none
  | explained (text : String)
  | reported
  deriving DecidableEq

namespace MappingProblem

def listShown (items : List String) : String :=
  "[" ++ ", ".intercalate (items.map Text.quote) ++ "]"

def message : MappingProblem → String
  | malformedEntry shown => s!"Invalid mapping entry {shown}"
  | blankEntry kind tokens =>
      let shownKind := if kind.isEmpty then "None" else kind
      let shownTokens := if tokens.isEmpty then "None" else listShown tokens
      s!"Invalid mapping for Kind {shownKind} and Filename Types {shownTokens}"
  | unreadableFile path => s!"Cannot load mappings file {path.text}"
  | noSection path =>
      s!"Mappings file {path.text} must contain a 'mappings' section"
  | sectionNotList path =>
      s!"'mappings' in {path.text} must be a list of mappings"
  | notMapping path =>
      s!"Each mapping in {path.text} must be a mapping with 'kind' and 'tokens'"
  | invalidEntry path shown => s!"Invalid mapping in {path.text}: {shown}"

def fileName : MappingProblem → Option String
  | malformedEntry _ => none
  | blankEntry _ _ => none
  | unreadableFile path => some path.name
  | noSection path => some path.name
  | sectionNotList path => some path.name
  | notMapping path => some path.name
  | invalidEntry path _ => some path.name

def details : MappingProblem → Details
  | malformedEntry _ => .reported
  | unreadableFile _ => .reported
  | invalidEntry _ _ => .reported
  | _ => .none

end MappingProblem

namespace ReadProblem

def message (path : Path) : ReadProblem → String
  | noFile => s!"Cannot read resource fragment {path.text}"
  | notUtf8 => s!"Resource fragment {path.name} is not valid UTF-8"
  | json _ _ _ => s!"Invalid JSON in resource fragment {path.name}"
  | yaml => s!"Invalid YAML in resource fragment {path.name}"
  | notMapping observed =>
      s!"Resource fragment {path.name} must contain a mapping, not a {observed}"

def details : ReadProblem → Details
  | json reason line column =>
      .explained s!"Line {line}, column {column}: {reason}"
  | notMapping _ => .none
  | _ => .reported

end ReadProblem

namespace Failure

def message : Failure → String
  | mapping problem => problem.message
  | nameFormat fileName =>
      s!"Resource file name '{fileName}' does not match pattern " ++
        "<name>-<type>.(yaml|yml|json)"
  | unknownType token fileName known =>
      s!"Unknown type '{token}' for file {fileName}. Must be one of : " ++
        ", ".intercalate known
  | missingKind fileName =>
      "No type given as part of the file name (e.g. 'app-rc.yml') " ++
        s!"and no 'Kind' defined in resource descriptor {fileName}"
  | metadataType observed fileName =>
      let place := match fileName with
        | some name =>
            if name.isEmpty then "" else s!" in resource descriptor {name}"
        | none => ""
      s!"Metadata is expected to be a Map, not a {observed}{place}"
  | invalidSyntax fileName cause =>
      s!"Resource fragment {fileName} has an invalid syntax ({cause})"
  | unreadable path problem => problem.message path

def fileName : Failure → Option String
  | mapping problem => problem.fileName
  | nameFormat fileName => some fileName
  | unknownType _ fileName _ => some fileName
  | missingKind fileName => some fileName
  | metadataType _ fileName => fileName
  | invalidSyntax fileName _ => some fileName
  | unreadable path _ => some path.name

def details : Failure → Details
  | mapping problem => problem.details
  | invalidSyntax _ cause => .explained cause
  | unreadable _ problem => problem.details
  | _ => .none

end Failure

structure Complaint where
  place : List String
  reason : String
  deriving DecidableEq

def Complaint.text (complaint : Complaint) : String :=
  ".".intercalate complaint.place ++ ": " ++ complaint.reason

def Complaint.summary (complaints : List Complaint) : String :=
  "; ".intercalate (complaints.map Complaint.text)

/-- Everything that can end an operation early. -/
inductive Problem
  | failure (failure : Failure)
  | fault (fault : Fault)
  | rejected (complaints : List Complaint)
  deriving DecidableEq

/-- What is done inside a container, unless no more may lie in each other. -/
def below (levels : Nat) (tooDeep : ε) (inner : Except ε α) : Except ε α :=
  if levels = 0 then .error tooDeep else inner

def orFault : Except Fault α → Except Problem α
  | .ok value => .ok value
  | .error fault => .error (.fault fault)

end Fragments
