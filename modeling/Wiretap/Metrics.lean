/-
  Wiretap.Metrics
  ───────────────
  **COUNTERS.**

  What a running service counts.  A counter that was never raised has no reading, nor has
  the gauge before it is first set.
-/
import Std.Data.ExtTreeMap
import Wiretap.Capture.Direction

namespace Wiretap

/-- The counters and the gauge. -/
structure Metrics where
  /-- Bytes captured. -/
  captureBytes : PerDirection Nat
  /-- Buffers that moved to disk. -/
  spills : PerDirection Nat
  /-- Taps that failed to write. -/
  writeFailures : PerDirection Nat
  /-- Buffers saved to a file after a failure of the log. -/
  emergencyPersists : Nat
  /-- Exchanges archived. -/
  archived : Nat
  /-- Records handed to all sinks. -/
  dispatched : Nat
  /-- Records dropped before that. -/
  dropped : Nat
  /-- Errors by the name of the sink. -/
  sinkErrors : Std.ExtTreeMap String Nat compare
  /-- Records that wait for the worker, as last reported. -/
  queueDepth : Option Nat

/-- The value of one counter. -/
structure Reading where
  name : String
  /-- What the counter is split by, and the part that this one counts. -/
  label : Option (String × String)
  value : Nat
  deriving DecidableEq, Repr

/-- The name of a counter, with what it is split by in braces. -/
def Reading.title (r : Reading) : String :=
  match r.label with
  | some (key, part) => r.name ++ "\x7b" ++ key ++ "=" ++ part ++ "\x7d"
  | none => r.name

namespace Metrics

/-- Nothing counted. -/
def zero : Metrics := ⟨.both 0, .both 0, .both 0, 0, 0, 0, 0, ∅, none⟩

/-- Counts captured bytes. -/
def addBytes (m : Metrics) (d : Direction) (n : Nat) : Metrics :=
  { m with captureBytes := m.captureBytes.modify d (· + n) }

/-- Counts a move to disk. -/
def addSpill (m : Metrics) (d : Direction) : Metrics :=
  { m with spills := m.spills.modify d (· + 1) }

/-- Counts a tap that failed. -/
def addWriteFailure (m : Metrics) (d : Direction) : Metrics :=
  { m with writeFailures := m.writeFailures.modify d (· + 1) }

/-- Counts an error of a sink. -/
def addSinkError (m : Metrics) (sink : String) : Metrics :=
  { m with sinkErrors := m.sinkErrors.insert sink (m.sinkErrors[sink]?.getD 0 + 1) }

/-- The readings of a counter that is split by direction. -/
def readingsOf (name : String) (counts : PerDirection Nat) : List Reading :=
  Direction.all.map fun d => ⟨name, some ("direction", d.name), counts.of d⟩

/-- All counters that were raised, and the gauge if it was set. -/
def readings (m : Metrics) : List Reading :=
  let counters :=
    readingsOf "capture_bytes_total" m.captureBytes
      ++ readingsOf "capture_spills_total" m.spills
      ++ readingsOf "capture_write_failures_total" m.writeFailures
      ++ [⟨"capture_emergency_persists_total", none, m.emergencyPersists⟩,
        ⟨"capture_archived_total", none, m.archived⟩,
        ⟨"access_log_dispatched_total", none, m.dispatched⟩,
        ⟨"access_log_dropped_total", none, m.dropped⟩]
      ++ m.sinkErrors.toList.map fun (sink, n) =>
        ⟨"access_log_sink_errors_total", some ("sink", sink), n⟩
  counters.filter (0 < ·.value)
    ++ m.queueDepth.toList.map fun n => ⟨"access_log_queue_depth", none, n⟩

end Metrics

end Wiretap
