/-
  Wiretap.Config.Settings
  ───────────────────────
  **THE SETTINGS OF A PROXY.**

  Every setting with its default.
-/
import Wiretap.Disk.Path
import Wiretap.Policy.Basic

namespace Wiretap.Config

/-! ## §1. Sections. -/

/-- Where requests are taken. -/
structure Listener where
  bindAddress : String := "0.0.0.0:8080"
  deriving DecidableEq

/-- How long to wait, in seconds. -/
structure Timeouts where
  connect : Nat := 5
  request : Nat := 30
  deriving DecidableEq

/-- The form of the diagnostic log. -/
inductive LogFormat
  | pretty
  | json
  deriving DecidableEq

/-- The written form. -/
def LogFormat.name : LogFormat → String
  | .pretty => "pretty"
  | .json => "json"

/-- What can be seen of a running proxy. -/
structure Observability where
  logLevel : String := "info"
  logFormat : LogFormat := .pretty
  metricsEnabled : Bool := false
  metricsAddress : String := "0.0.0.0:9090"
  deriving DecidableEq

/-- Header rules by header name as written, in the order of their bytes. -/
structure HeaderRules where
  includes : Std.ExtTreeMap String Rule compare := ∅
  excludes : Std.ExtTreeMap String Rule compare := ∅
  deriving DecidableEq

/-- The policy of some rules; at most one of the two sets may have entries. -/
def HeaderRules.toPolicy (h : HeaderRules) : Except PolicyError Policy :=
  Policy.tryOfEntries h.includes.toList h.excludes.toList

/-- Whether and where exchanges are archived. -/
structure Archive where
  enabled : Bool := false
  baseDirectory : String := "capture/archive"
  deriving DecidableEq

/-- Whether and how bodies are captured. -/
structure Capture where
  enabled : Bool := true
  bufferDirectory : String := "capture/buffers"
  /-- The most bytes of a buffer in memory. -/
  memoryThreshold : Nat := 1048576
  headers : HeaderRules := {}
  archive : Archive := {}
  deriving DecidableEq

/-- How records reach the sinks. -/
inductive DispatchMode
  /-- At once. -/
  | direct
  /-- Through a queue. -/
  | queued
  deriving DecidableEq

/-- The written form. -/
def DispatchMode.name : DispatchMode → String
  | .direct => "sync"
  | .queued => "async"

/-- The most bytes of a body in a log line, unless told otherwise. -/
def defaultMaxBodyBytes : Nat := 65536

/-- A sink. -/
inductive SinkSettings
  /-- A line for each record in a file. -/
  | jsonLines (path : String) (includeBodies : Bool) (maxBodyBytes : Nat)
  /-- An event for each record. -/
  | tracing
  deriving DecidableEq

/-- How exchanges are logged. -/
structure AccessLog where
  mode : DispatchMode := .queued
  queueCapacity : Nat := 10000
  /-- How many seconds the queue has to empty itself at the end. -/
  shutdownGrace : Nat := 5
  /-- At most one warning for so many drops. -/
  dropLogThreshold : Nat := 100
  sinks : List SinkSettings := [.tracing]
  deriving DecidableEq

/-- Where requests of some kind are sent. -/
structure RouteSettings where
  name : String
  host : Option String
  pathPrefix : Option String
  upstreamUri : String
  /-- Of two routes that match, the one with the higher priority is taken. -/
  priority : Nat := 0
  capture : Bool := true
  headers : Option HeaderRules := none
  deriving DecidableEq

/-! ## §2. All of them. -/

/-- The settings of a proxy. -/
structure Settings where
  listener : Listener := {}
  timeouts : Timeouts := {}
  observability : Observability := {}
  capture : Capture := {}
  accessLog : AccessLog := {}
  routes : List RouteSettings := []
  deriving DecidableEq

end Wiretap.Config
