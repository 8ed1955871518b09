/-
  Wiretap.Log.Sink
  ────────────────
  **SINKS.**

  A sink is called with each record.  The built-in ones emit an event or add a line to a
  file; any other is a function from the record to what it answers, which may be a panic.
-/
import Wiretap.Log.Event
import Wiretap.Log.LineFile

namespace Wiretap

/-- How a sink answers. -/
inductive SinkAnswer
  | returned (result : SinkResult)
  /-- It panicked, with a text or with something else. -/
  | panicked (message : Option String)
  deriving DecidableEq, Repr

/-- What is reported for an answer: a panic is one error of the sink. -/
def SinkAnswer.result (sink : String) : SinkAnswer → SinkResult
  | .returned result => result
  | .panicked message => .failed sink ("panicked: " ++ message.getD "unknown panic")

/-- What a sink does with a record. -/
inductive SinkAction
  /-- Emits an event. -/
  | event
  /-- Adds a line to a file. -/
  | appendLine (file : LineFile) (detail : BodyDetail)
  /-- Answers in some way of its own. -/
  | answer (respond : Record → SinkAnswer)

/-- A consumer of records. -/
structure Sink where
  name : String
  action : SinkAction

/-- What a call of a sink leads to. -/
structure SinkCall where
  answer : SinkAnswer
  sink : Sink
  disk : Disk
  events : List Event

namespace Sink

/-- The sink that emits an event for each record. -/
def events : Sink := ⟨"tracing", .event⟩

/-- The sink that adds a line to a file for each record. -/
def lines (file : LineFile) (detail : BodyDetail) : Sink := ⟨"json_lines", .appendLine file detail⟩

/-- What a sink of a name answers when it cannot add a line to the file at a path. -/
def unwritten (name : String) (path : Path) : ReadStop → SinkAnswer
  | .failed fault => .returned (.failed name (path.text ++ ": " ++ fault.message))
  | .overflow => .panicked (some ReadStop.overflow.message)

/-- Adds the line of a record to a file, for a sink of a name. -/
def addLine (name : String) (file : LineFile) (detail : BodyDetail) (disk : Disk) (r : Record) :
    SinkAnswer × LineFile × Disk :=
  match AccessLine.line detail disk r with
  | .error stop => (unwritten name file.path stop, file, disk)
  | .ok line =>
    match file.writeLine disk line with
    | (.ok (), file, disk) => (.returned .ok, file, disk)
    | (.error fault, file, disk) => (unwritten name file.path (.failed (.disk fault)), file, disk)

/-- Calls a sink with a record. -/
def call (s : Sink) (disk : Disk) (r : Record) : SinkCall :=
  match s.action with
  | .event => ⟨.returned .ok, s, disk, [.completed (.ofRecord r)]⟩
  | .answer respond => ⟨respond r, s, disk, []⟩
  | .appendLine file detail =>
    let (answer, file, disk) := addLine s.name file detail disk r
    ⟨answer, { s with action := .appendLine file detail }, disk, []⟩

end Sink

end Wiretap
