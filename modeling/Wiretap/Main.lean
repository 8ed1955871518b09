/-
  Wiretap.Main
  ────────────
  **THE PROGRAM.**

  Reads the settings that the arguments name, checks them and starts the service on an
  empty disk.  It prints the settings that hold and the routes in the order in which they
  are tried, or what is wrong.
-/
import Wiretap.Command
import Wiretap.Config.Encode
import Wiretap.Config.Load
import Wiretap.Service.Start

namespace Wiretap

/-- What is said of settings that hold no document or no setting. -/
def unreadableSettings : String := "the settings cannot be read"

/-- The lines to print for some settings. -/
def report (s : Config.Settings) : Except String (List String) :=
  match Service.start (.ofDirectories [["work"]] ["work"]) s with
  | .error failure => .error failure.message
  | .ok service =>
    .ok (s.encode.render :: service.routes.routes.map fun r =>
      (Json.object (Event.routeRegistered r.notice).fields).render)

/-- The settings that a command names. -/
def readSettings (c : Command) : IO (Except String Config.Settings) := do
  match c.configuration with
  | none => return .ok (c.adjust {})
  | some file =>
    let content ← IO.FS.readBinFile file
    match Utf8.decode? content.toList with
    | none => return .error ("IO error: " ++ Fault.notText.message)
    | some text =>
      return ((Config.parse text).map c.adjust).mapError fun failure =>
        failure.message?.getD unreadableSettings

/-- Carries out a command; the number is that of the exit. -/
def runCommand (c : Command) : IO UInt32 := do
  match (← readSettings c).bind report with
  | .ok lines =>
    lines.forM IO.println
    return 0
  | .error message =>
    IO.eprintln message
    return 1

end Wiretap

/-- Reads the arguments and carries them out. -/
def main (arguments : List String) : IO UInt32 := do
  match Wiretap.Command.ofArguments arguments with
  | .ok command => Wiretap.runCommand command
  | .error problem =>
    IO.eprintln problem.message
    return 2
