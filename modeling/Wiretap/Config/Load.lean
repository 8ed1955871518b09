/-
  Wiretap.Config.Load
  ───────────────────
  **SETTINGS FROM A TEXT OR A FILE.**
-/
import Wiretap.Config.Decode
import Wiretap.Config.Validation
import Wiretap.Disk.Basic
import Wiretap.Text.Utf8
import Wiretap.Toml.Parser

namespace Wiretap.Config

/-- Why there are no settings. -/
inductive LoadFailure
  | disk (fault : Fault)
  /-- The text is no document, or an entry is no setting. -/
  | parse (problem : DecodeProblem)
  | invalid (problems : List Problem)
  deriving DecidableEq

/-- The wording of a failure, where it has one. -/
def LoadFailure.message? : LoadFailure → Option String
  | .disk fault => some ("IO error: " ++ fault.message)
  | .parse problem => problem.message?
  | .invalid problems =>
    some ("Validation failed: " ++ String.intercalate ", " (problems.map (·.message)))

/-- The settings that a text writes, whether they make sense or not. -/
def read (content : String) : Except LoadFailure Settings :=
  match Toml.parse? content with
  | none => .error (.parse .wrongKind)
  | some entries => (Settings.decode entries).mapError .parse

/-- Settings without problems. -/
def check (s : Settings) : Except LoadFailure Settings :=
  if s.problems.isEmpty then .ok s else .error (.invalid s.problems)

/-- The settings that a text writes, if they make sense. -/
def parse (content : String) : Except LoadFailure Settings := do check (← read content)

/-- The settings in a file. -/
def load (disk : Disk) (path : Path) : Except LoadFailure Settings :=
  match disk.read path with
  | .error fault => .error (.disk fault)
  | .ok bytes =>
    match Utf8.decode? bytes with
    | some content => parse content
    | none => .error (.disk .notText)

end Wiretap.Config
