/-
  Wiretap.Command
  ───────────────
  **THE COMMAND LINE.**

  What the arguments ask for: the file of settings, and a level for the diagnostic log that
  takes the place of the configured one.
-/
import Wiretap.Config.Settings

namespace Wiretap

/-- What the arguments ask for. -/
structure Command where
  /-- The file of settings; without one every setting has its default. -/
  configuration : Option String
  logLevel : Option String
  deriving DecidableEq, Repr

/-- What is wrong with the arguments. -/
inductive CommandProblem
  | unknownArgument (argument : String)
  | missingValue (option : String)
  deriving DecidableEq, Repr

/-- The wording of a problem. -/
def CommandProblem.message : CommandProblem → String
  | .unknownArgument argument => "unexpected argument '" ++ argument ++ "'"
  | .missingValue option => "a value is required for '" ++ option ++ "'"

namespace Command

/-- The arguments read so far, and then the rest; of two values the later counts. -/
def readFrom (c : Command) : List String → Except CommandProblem Command
  | [] => .ok c
  | [argument] =>
    if ["-c", "--config", "-l", "--log-level"].contains argument then
      .error (.missingValue argument)
    else .error (.unknownArgument argument)
  | option :: value :: rest =>
    if option == "-c" || option == "--config" then
      readFrom { c with configuration := some value } rest
    else if option == "-l" || option == "--log-level" then
      readFrom { c with logLevel := some value } rest
    else .error (.unknownArgument option)

/-- What some arguments ask for. -/
def ofArguments (arguments : List String) : Except CommandProblem Command :=
  readFrom ⟨none, none⟩ arguments

/-- The settings with what the arguments override. -/
def adjust (c : Command) (s : Config.Settings) : Config.Settings :=
  match c.logLevel with
  | some logLevel => { s with observability := { s.observability with logLevel } }
  | none => s

end Command

end Wiretap
