import Fragments.Failure
import Fragments.Markup.Render

namespace Fragments

inductive UsageProblem
  | noArguments
  | noCommand
  | unknownCommand (name : String)
  | unknownSwitch (written : String)
  | missingValue (switch : String)
  | unexpectedValue (switch : String)
  | missingArgument (name : String)
  | extraArgument (argument : String)
  | leadsNowhere (argument : String)
  | directory (argument : String)
  deriving DecidableEq

def UsageProblem.message : UsageProblem → String
  | noArguments => "Nothing to do"
  | noCommand => "Missing command"
  | unknownCommand name => s!"No such command {name}"
  | unknownSwitch written => s!"No such option {written}"
  | missingValue switch => s!"Option {switch} needs a value"
  | unexpectedValue switch => s!"Option {switch} does not take a value"
  | missingArgument name => s!"Missing argument {name}"
  | extraArgument argument => s!"Unexpected argument {argument}"
  | leadsNowhere argument => s!"Path {argument} does not exist"
  | directory argument => s!"Path {argument} is a directory"

inductive Ending
  | done
  | help
  | misused (problem : UsageProblem)
  /-- A reported failure with what is printed about it. -/
  | failed (printed : String)
  /-- A problem that nothing in the program reports. -/
  | crashed (problem : Problem)
  deriving DecidableEq

namespace Ending

/-- Zero stands for success, two for a misuse, and one for everything else. -/
def status : Ending → Nat
  | done => 0
  | help => 0
  | misused _ => 2
  | failed _ => 1
  | crashed _ => 1

def complain (message : String) (hints : List String) : Ending :=
  let lines := s!"[red]Error:[/red] {Markup.escape message}" :: hints
  match lines.mapM Markup.printLine with
  | .ok printed => failed (String.join printed)
  | .error fault => crashed (.fault fault)

def ofFailure (failure : Failure) : Ending :=
  complain failure.message <|
    match failure.details with
    | .explained text => [s!"  [dim]{Markup.escape text}[/dim]"]
    | _ => []

def ofProblem : Problem → Ending
  | .failure failure => ofFailure failure
  | problem => crashed problem

end Ending

def orEnd : Except Problem α → Except Ending α
  | .ok value => .ok value
  | .error problem => .error (.ofProblem problem)

end Fragments
