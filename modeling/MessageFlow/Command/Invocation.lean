import MessageFlow.Command.Arguments
import MessageFlow.Deployment.Variables

/-!
The program as a whole: its variables and arguments make an invocation, which shows something or fails.
The variables are looked at first, then the arguments, then the settings, then the command's own file.
-/

namespace MessageFlow

/-- Why the program shows nothing. -/
inductive Failure where
  /-- The file of variables holds a value that no variable can have. -/
  | variables
  /-- The arguments are not used as they should be. -/
  | usage
  | command (reason : String)
deriving DecidableEq

/-- How the program is used. -/
def usageText : String :=
  "Usage: compile --file FILE [--encoding ENCODING]\n" ++
  "       run --file FILE [--payload JSON] [--header KEY=VALUE]... [--isolation ISOLATION]"

namespace Failure

def exitCode : Failure → Nat
  | .variables => 101
  | .usage => 2
  | .command _ => 1

def message : Failure → String
  | .variables => "\nA variable cannot have a value with the character NUL"
  | .usage => usageText
  | .command reason => "Error: " ++ reason

end Failure

/-- A command with the settings that it runs under. -/
structure Invocation where
  command : Command
  settings : Settings

namespace Invocation

/-- The invocation of the program under the variables of its process, with the contents of a file of
variables if there is one. -/
def prepare (process : Variables) (file : Option ByteArray) (args : List String) :
    Except Failure Invocation :=
  match process.addFile? (file.getD .empty), Command.ofArguments? args with
  | none, _ => .error .variables
  | some _, none => .error .usage
  | some vars, some command =>
    match Settings.ofLookup vars with
    | .error e => .error (.command e.message)
    | .ok settings => .ok { command, settings }

/-- What the program shows, given the contents of the command's file. -/
def perform (i : Invocation) (contents : Option String) (fresh : Message) : Except Failure Json :=
  (i.command.perform i.settings contents fresh).mapError Failure.command

end Invocation
end MessageFlow
