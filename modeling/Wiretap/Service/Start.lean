/-
  Wiretap.Service.Start
  ─────────────────────
  **STARTING FROM SETTINGS.**

  The buffers, the log with its sinks, the policy and the routes, made one after another
  in this order; the first that cannot be made ends it.
-/
import Wiretap.Config.Settings
import Wiretap.Exchange.Completed
import Wiretap.Route.Table

namespace Wiretap

/-! ## §1. Failures. -/

/-- Why a service cannot start. -/
inductive StartFailure
  | capture (failure : CaptureFailure)
  /-- A log file could not be opened. -/
  | sinks (path : Path) (fault : Fault)
  /-- The queue is to be too large. -/
  | queue
  | policy (error : PolicyError)
  | routes (failure : RouteFailure)
  deriving DecidableEq, Repr

/-- The wording of a log file that could not be opened. -/
def unopenedLog (path : Path) (fault : Fault) : String :=
  "failed to open access log file " ++ path.text ++ ": " ++ fault.message

/-- The wording of a failure. -/
def StartFailure.message : StartFailure → String
  | .capture failure => "capture repository: " ++ failure.message
  | .sinks path fault => "access log sinks: " ++ unopenedLog path fault
  | .queue => Queue.tooLarge
  | .policy error => "global header policy: " ++ error.message
  | .routes failure => "routes: " ++ failure.message

/-! ## §2. The parts. -/

/-- The store that some settings ask for. -/
def Store.ofSettings (disk : Disk) (c : Config.Capture) : Except CaptureFailure Store :=
  if c.enabled then Store.open? disk (.ofText c.bufferDirectory) c.memoryThreshold
  else .ok (Store.disabled disk)

/-- A sink, its log file open. -/
def Sink.ofSettings (disk : Disk) : Config.SinkSettings → Except (Path × Fault) (Sink × Disk)
  | .tracing => .ok (Sink.events, disk)
  | .jsonLines path includeBodies maxBodyBytes =>
    match LineFile.open? disk (.ofText path) with
    | (.error fault, _) => .error (.ofText path, fault)
    | (.ok file, disk) =>
      .ok (Sink.lines file ⟨includeBodies, UInt64.ofNat maxBodyBytes⟩, disk)

/-- Sinks, in order. -/
def Sink.allOfSettings (disk : Disk) :
    List Config.SinkSettings → Except (Path × Fault) (List Sink × Disk)
  | [] => .ok ([], disk)
  | s :: rest => do
    let (sink, disk) ← Sink.ofSettings disk s
    let (sinks, disk) ← Sink.allOfSettings disk rest
    return (sink :: sinks, disk)

/-- The queue that some settings ask for; in direct mode there is none. -/
def Queue.ofSettings (a : Config.AccessLog) : Except StartFailure (Option Queue) :=
  match a.mode with
  | .direct => .ok none
  | .queued =>
    match Queue.ofCapacity? a.queueCapacity a.dropLogThreshold with
    | some queue => .ok (some queue)
    | none => .error .queue

/-- The archive that some settings ask for. -/
def archiveOfSettings (a : Config.Archive) : Option Path :=
  if a.enabled then some (.ofText a.baseDirectory) else none

/-- A journal in which nothing has happened yet. -/
def Journal.new (store : Store) (sinks : List Sink) (listeners : List Listener) : Journal :=
  ⟨store, ⟨sinks, listeners, .idle, 0⟩, []⟩

/-! ## §3. The service. -/

/-- A service that has been started. -/
structure Service where
  site : Site
  recording : Recording
  routes : RouteTable

/-- The failure that a part of a service ended with. -/
def orFail {ε α : Type} (f : ε → StartFailure) : Except ε α → Except StartFailure α
  | .ok a => .ok a
  | .error e => .error (f e)

/-- Starts the service that some settings describe. -/
def Service.start (disk : Disk) (s : Config.Settings) : Except StartFailure Service := do
  let store ← orFail .capture (Store.ofSettings disk s.capture)
  let (sinks, disk) ← orFail (fun e => .sinks e.1 e.2)
    (Sink.allOfSettings store.disk s.accessLog.sinks)
  let queue ← Queue.ofSettings s.accessLog
  let policy ← orFail .policy s.capture.headers.toPolicy
  let routes ← orFail .routes (RouteTable.ofSettings policy s.routes)
  let journal := (Journal.new { store with disk } sinks []).note
    (routes.routes.map fun r => .event (.routeRegistered r.notice))
  return ⟨⟨journal, queue⟩, ⟨policy, archiveOfSettings s.capture.archive⟩, routes⟩

end Wiretap
