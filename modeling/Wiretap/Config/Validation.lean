/-
  Wiretap.Config.Validation
  ─────────────────────────
  **SETTINGS THAT MAKE SENSE.**

  `problems` lists everything that is wrong with some settings, in a fixed order; settings
  are accepted when it lists nothing.
-/
import Wiretap.Config.Settings
import Wiretap.Net.SocketAddress
import Wiretap.Uri.Parser

namespace Wiretap.Config

/-- Something wrong with some settings. -/
inductive Problem
  | invalidAddress (field value : String)
  | ambiguousPolicy (scope : String)
  | emptyBufferDirectory
  | emptyArchiveDirectory
  | zeroQueueCapacity
  | invalidSink (index : Nat) (reason : String)
  | duplicateRoute (name : String)
  | invalidUpstream (route value : String)
  deriving DecidableEq, Repr

/-- The wording of a problem. -/
def Problem.message : Problem → String
  | .invalidAddress field value => field ++ ": invalid socket address '" ++ value ++ "'"
  | .ambiguousPolicy scope => scope ++ ": " ++ PolicyError.ambiguous.message
  | .emptyBufferDirectory => "capture.buffer_dir must not be empty when capture is enabled"
  | .emptyArchiveDirectory =>
    "capture.archive.base_dir must not be empty when archival is enabled"
  | .zeroQueueCapacity => "access_log.queue_capacity must be greater than zero"
  | .invalidSink index reason => "access_log.sinks[" ++ toString index ++ "]: " ++ reason
  | .duplicateRoute name => "route '" ++ name ++ "' is defined more than once"
  | .invalidUpstream route value => "route '" ++ route ++ "': invalid upstream '" ++ value ++ "'"

/-- A problem, where a test fails. -/
def require (holds : Bool) (problem : Problem) : List Problem := if holds then [] else [problem]

/-- The problem of a text that is no address. -/
def addressProblems (field value : String) : List Problem :=
  require (Net.SocketAddress.parse? value).isSome (.invalidAddress field value)

/-- The problem of rules that make no policy. -/
def policyProblems (scope : String) (h : HeaderRules) : List Problem :=
  require h.toPolicy.isOk (.ambiguousPolicy scope)

/-- Whether requests can be sent to an address: plain HTTP with an authority. -/
def isUpstream (value : String) : Bool :=
  match Uri.parse? value with
  | some u => u.scheme == some "http" && u.authority.isSome
  | none => false

/-- The problems of a sink. -/
def sinkProblems (index : Nat) : SinkSettings → List Problem
  | .tracing => []
  | .jsonLines path includeBodies maxBodyBytes =>
    require (path != "") (.invalidSink index "json_lines sink requires a path")
      ++ require (!includeBodies || maxBodyBytes != 0)
        (.invalidSink index
          "max_body_bytes must be greater than zero when bodies are included")

/-- The problems of a route that does not have one of the names `taken`. -/
def routeProblems (taken : List String) (r : RouteSettings) : List Problem :=
  require (!taken.contains r.name) (.duplicateRoute r.name)
    ++ require (isUpstream r.upstreamUri) (.invalidUpstream r.name r.upstreamUri)
    ++ (match r.headers with
      | some h => policyProblems ("routes." ++ r.name ++ ".headers") h
      | none => [])

/-- The problems of routes that follow others with the names `taken`. -/
def routesProblems : (taken : List String) → List RouteSettings → List Problem
  | _, [] => []
  | taken, r :: rest => routeProblems taken r ++ routesProblems (r.name :: taken) rest

/-- Everything that is wrong. -/
def Settings.problems (s : Settings) : List Problem :=
  addressProblems "listener.bind_address" s.listener.bindAddress
    ++ (if s.observability.metricsEnabled then
        addressProblems "observability.metrics_address" s.observability.metricsAddress
      else [])
    ++ require (!s.capture.enabled || s.capture.bufferDirectory != "") .emptyBufferDirectory
    ++ require (!s.capture.archive.enabled || s.capture.archive.baseDirectory != "")
      .emptyArchiveDirectory
    ++ policyProblems "capture.headers" s.capture.headers
    ++ require (s.accessLog.queueCapacity != 0) .zeroQueueCapacity
    ++ (s.accessLog.sinks.zipIdx.flatMap fun (sink, index) => sinkProblems index sink)
    ++ routesProblems [] s.routes

end Wiretap.Config
