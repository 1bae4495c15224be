import Fragments.Data.Apart
import Fragments.Data.Display
import Fragments.Failure

namespace Fragments

structure MappingEntry where
  kind : String
  tokens : List String
  deriving DecidableEq, Inhabited

namespace MappingEntry

/-- An entry takes effect only with a kind and at least one token. -/
def isValid (entry : MappingEntry) : Bool :=
  !entry.kind.isEmpty && !entry.tokens.isEmpty

def complaintOf (field : String) : Fault → Complaint
  | .value text => ⟨[field], "Value error, " ++ text⟩
  | _ => ⟨[field], "Value error"⟩

def readKind : Value → Except Complaint String
  | .scalar .null => .ok ""
  | value =>
      match value.plain with
      | .ok text => .ok (Text.trim text)
      | .error fault => .error (complaintOf "kind" fault)

def cleanTokens (texts : List String) : List String :=
  (texts.map Text.trim).filter fun token => !token.isEmpty

def notTokens : Complaint :=
  ⟨["tokens"], "Value error, tokens must be a list or a comma-separated string"⟩

def readTokens : Value → Except Complaint (List String)
  | .scalar .null => .ok []
  | .scalar (.text text) => .ok (cleanTokens (Text.split ',' text))
  | .list _ items =>
      match items.mapM Value.plain with
      | .ok texts => .ok (cleanTokens texts)
      | .error fault => .error (complaintOf "tokens" fault)
  | .pair first second =>
      match [first, second].mapM Value.plain with
      | .ok texts => .ok (cleanTokens texts)
      | .error fault => .error (complaintOf "tokens" fault)
  | _ => .error notTokens

/-- An entry from the values of its two fields. Both are read before
complaining. -/
def ofParts (kind tokens : Value) : Except (List Complaint) MappingEntry :=
  match readKind kind, readTokens tokens with
  | .ok kind, .ok tokens => .ok ⟨kind, tokens⟩
  | .ok _, .error complaint => .error [complaint]
  | .error complaint, .ok _ => .error [complaint]
  | .error first, .error second => .error [first, second]

def ofFields (entries : List (Scalar × Value)) :
    Except (List Complaint) MappingEntry :=
  ofParts ((Value.field? entries "kind").getD .null)
    ((Value.field? entries "tokens").getD .null)

/-- An entry from any value. A mapping or its tokens may hold themselves. -/
def ofValue (value : Value) : Except (List Complaint) MappingEntry :=
  match value.apart with
  | .mapping _ entries =>
      ofParts ((Value.field? entries "kind").getD .null)
        ((Value.field? entries "tokens").getD .null).apart
  | _ =>
      .error
        [⟨[], "Input should be a valid dictionary or instance of MappingEntry"⟩]

end MappingEntry

end Fragments
