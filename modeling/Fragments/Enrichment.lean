import Fragments.Data.Display
import Fragments.FileName
import Fragments.Mapping.Registry
import Fragments.Versioning

namespace Fragments

/-- What enrichment knows besides the fragment. `name` is lost when it turns out
to be a type. -/
structure Context where
  fileName : String
  name : Option String
  typeToken : Option String
  appName : String
  versioning : Versioning
  registry : Registry
  deriving Inhabited

inductive Enricher
  | kind
  | apiVersion
  | name
  deriving DecidableEq, Inhabited

def Enricher.label : Enricher → String
  | kind => "kind"
  | apiVersion => "api-version"
  | name => "name"

def Enricher.chain : List Enricher := [.kind, .apiVersion, .name]

namespace Enrichment

def context (file : FileName) (appName : String) (versioning : Versioning)
    (registry : Registry) : Context where
  fileName := file.fileName
  name := some file.name
  typeToken := file.typeToken
  appName := appName
  versioning := versioning
  registry := registry

/-- The kind that the file name gives: by its type, which must be known, or by
the whole name. -/
def kindOfFileName (context : Context) : Except Problem (Option String) :=
  match context.typeToken with
  | some token =>
      match context.registry.kindOf? token with
      | some kind => .ok (some kind)
      | none =>
          .error (.failure
            (.unknownType token context.fileName context.registry.knownTokens))
  | none => .ok (context.name.bind context.registry.kindOf?)

/-- A name that was read as a type is no name of the resource. -/
def settleName (context : Context) (kind : Option String) : Context :=
  if context.typeToken.isNone && kind.isSome then { context with name := none }
  else context

/-- A declared kind that is no text is shown in full in the log, so it must be
possible to show it. -/
def checkShown : Value → Except Problem Unit
  | .scalar (.text _) => .ok ()
  | other => (orFault other.display).map fun _ => ()

structure State where
  fragment : Fragment
  context : Context
  deriving Inhabited

def enrichKind (state : State) : State × Option Problem :=
  match kindOfFileName state.context with
  | .error problem => (state, some problem)
  | .ok kind =>
      let settled := { state with context := settleName state.context kind }
      match state.fragment.present? "kind", kind with
      | none, none =>
          (settled, some (.failure (.missingKind state.context.fileName)))
      | none, some kind =>
          ({ settled with fragment :=
            settled.fragment.assign "kind" (.text kind) }, none)
      | some _, none => (settled, none)
      | some declared, some _ =>
          match checkShown declared with
          | .ok () => (settled, none)
          | .error problem => (settled, some problem)

/-- Sets the API version that belongs to the kind unless one is declared. A kind
that is no text is left to be rejected later. -/
def enrichApiVersion (state : State) : State :=
  match state.fragment.present? "apiVersion",
    state.fragment.present? "kind" with
  | none, some (.scalar (.text kind)) =>
      match state.context.versioning.forKind kind with
      | .scalar .null => state
      | version =>
          { state with fragment := state.fragment.assign "apiVersion" version }
  | _, _ => state

def withMetadata (fragment : Fragment) : Except String Fragment :=
  match fragment.present? "metadata" with
  | none => .ok (fragment.assign "metadata" (.mapping none []))
  | some (.mapping _ _) => .ok fragment
  | some (.back _) => .ok fragment
  | some other => .error other.typeName

def metadataEntries (fragment : Fragment) : List (Scalar × Value) :=
  match fragment.present? "metadata" with
  | some (.mapping _ entries) => entries
  | some (.back _) => fragment.entries
  | _ => []

def changeMetadata (change : List (Scalar × Value) → List (Scalar × Value))
    (fragment : Fragment) : Fragment :=
  match fragment.present? "metadata" with
  | some (.mapping none entries) =>
      fragment.assign "metadata" (.mapping none (change entries))
  | some (.mapping (some label) _) => fragment.changeLabelled label change
  | some (.back label) => fragment.changeLabelled label change
  | _ => fragment

/-- The name for a resource: the one of the file name, or the application's when
that is blank. -/
def resourceName (context : Context) : String :=
  match context.name with
  | some name => if Text.isBlankText name then context.appName else name
  | none => context.appName

def enrichName (state : State) : State × Option Problem :=
  match withMetadata state.fragment with
  | .error observed =>
      (state,
        some (.failure (.metadataType observed (some state.context.fileName))))
  | .ok fragment =>
      match Value.present? (metadataEntries fragment) "name" with
      | some _ => ({ state with fragment }, none)
      | none =>
          let named := changeMetadata
            (Value.assign "name" (.text (resourceName state.context))) fragment
          ({ state with fragment := named }, none)

def apply (enricher : Enricher) (state : State) : State × Option Problem :=
  match enricher with
  | .kind => enrichKind state
  | .apiVersion => (enrichApiVersion state, none)
  | .name => enrichName state

def run : List Enricher → State → State × Option Problem
  | [], state => (state, none)
  | enricher :: rest, state =>
      match apply enricher state with
      | (after, none) => run rest after
      | (after, some problem) => (after, some problem)

def enrich (fragment : Fragment) (file : FileName) (appName : String)
    (versioning : Versioning) (registry : Registry) :
    Fragment × Option Problem :=
  let (state, problem) :=
    run Enricher.chain ⟨fragment, context file appName versioning registry⟩
  (state.fragment, problem)

end Enrichment

end Fragments
