/-
  Wiretap.Log.Journal
  ───────────────────
  **THE STATE OF THE LOG.**

  The store with its buffers and files, the logger that hands records to sinks, and the
  history of what happened: which sink was called with what, who heard of it, how each
  record ended and which events were emitted.

    • `Journal.finish` — a record leaves the log, and its buffers are let go of.
-/
import Wiretap.Archive
import Wiretap.Log.Sink

namespace Wiretap

/-! ## §1. The parts. -/

/-- The life of a logger. -/
inductive LoggerState
  | idle
  | dispatching
  | draining
  | stopped
  deriving DecidableEq, Repr

namespace LoggerState

/-- The state that a byte stands for; unknown bytes stand for the first. -/
def ofByte : UInt8 → LoggerState
  | 1 => .dispatching
  | 2 => .draining
  | 3 => .stopped
  | _ => .idle

/-- The written form. -/
def name : LoggerState → String
  | .idle => "Idle"
  | .dispatching => "Dispatching"
  | .draining => "Draining"
  | .stopped => "Stopped"

end LoggerState

/-- Someone who is told the result of each dispatch. -/
structure Listener where
  name : String
  /-- Whether hearing of a result makes it panic. -/
  panics : Bool
  deriving DecidableEq, Repr

/-- The logger that calls the sinks. -/
structure Delegate where
  sinks : List Sink
  listeners : List Listener
  state : LoggerState
  /-- Dispatches that are under way. -/
  inFlight : Nat

/-- One thing that happened. -/
inductive Notice
  /-- The sink at an index was called with a record, while the disk was as given. -/
  | handed (sink : Nat) (record : Record) (disk : Disk)
  /-- A listener was told a result. -/
  | heard (listener : Listener) (id : ExchangeId) (result : SinkResult)
  /-- A record ended and its finalizer ran. -/
  | finished (id : ExchangeId) (finalizer : Finalizer) (disposition : Disposition)
  | event (e : Event)

/-- The store, the logger, and what happened so far. -/
structure Journal where
  store : Store
  delegate : Delegate
  /-- What happened, in order. -/
  history : List Notice

namespace Journal

/-- With something more in the history. -/
def note (j : Journal) (notices : List Notice) : Journal :=
  { j with history := j.history ++ notices }

/-- With the counters changed. -/
def count (j : Journal) (f : Metrics → Metrics) : Journal :=
  { j with store := { j.store with metrics := f j.store.metrics } }

/-! ## §2. The end of a record. -/

/-- Lets go of the buffers of a record.  Logged in full they are archived or deleted, and
kept in files if that fails; logged in part they are kept; a dropped record's are deleted. -/
def settle (s : Store) (r : Record) (archive : Option Path) : Disposition → Store
  | .dropped => s.cleanup r.id
  | .delivered result =>
    if result.isOk then
      match archive with
      | none => s.cleanup r.id
      | some base =>
        match Archive.archive s base r with
        | (.ok _, s) => s
        | (.error _, s) => s.persist r.id
    else s.persist r.id

/-- Runs the finalizer of a record, if it has not run yet. -/
def finish (j : Journal) (r : Record) (disposition : Disposition) : Journal × Record :=
  match r.takeFinalizer with
  | (r, none) => (j, r)
  | (r, some finalizer) =>
    let j := j.note [.finished r.id finalizer disposition]
    match finalizer with
    | .announce => (j, r)
    | .settle archive => ({ j with store := settle j.store r archive disposition }, r)

end Journal

end Wiretap
