/-
  Wiretap.Config.Encode
  ─────────────────────
  **SETTINGS AS JSON.**

  Every section with every setting, those that were left out with their defaults; a
  setting that a route does without is null.
-/
import Wiretap.Config.Settings
import Wiretap.Json.Value

namespace Wiretap.Config

/-- Rules by header name. -/
def encodeRules (rules : Std.ExtTreeMap String Rule compare) : Json :=
  .object (rules.toList.map fun (name, rule) => (name, .text rule.name))

/-- The two sets of header rules. -/
def HeaderRules.encode (h : HeaderRules) : Json :=
  .object [("include", encodeRules h.includes), ("exclude", encodeRules h.excludes)]

/-- What can be seen of a running proxy. -/
def Observability.encode (o : Observability) : Json :=
  .object [("log_level", .text o.logLevel), ("log_format", .text o.logFormat.name),
    ("metrics_enabled", .bool o.metricsEnabled), ("metrics_address", .text o.metricsAddress)]

/-- Whether and where exchanges are archived. -/
def Archive.encode (a : Archive) : Json :=
  .object [("enabled", .bool a.enabled), ("base_dir", .text a.baseDirectory)]

/-- Whether and how bodies are captured. -/
def Capture.encode (c : Capture) : Json :=
  .object [("enabled", .bool c.enabled), ("buffer_dir", .text c.bufferDirectory),
    ("memory_threshold_bytes", .natural c.memoryThreshold), ("headers", c.headers.encode),
    ("archive", c.archive.encode)]

/-- A sink, its kind under `type`. -/
def SinkSettings.encode : SinkSettings → Json
  | .tracing => .object [("type", .text "tracing")]
  | .jsonLines path includeBodies maxBodyBytes =>
    .object [("type", .text "json_lines"), ("path", .text path),
      ("include_bodies", .bool includeBodies), ("max_body_bytes", .natural maxBodyBytes)]

/-- How exchanges are logged. -/
def AccessLog.encode (a : AccessLog) : Json :=
  .object [("mode", .text a.mode.name), ("queue_capacity", .natural a.queueCapacity),
    ("shutdown_grace_secs", .natural a.shutdownGrace),
    ("drop_log_threshold", .natural a.dropLogThreshold),
    ("sinks", .array (a.sinks.map SinkSettings.encode))]

/-- A route. -/
def RouteSettings.encode (r : RouteSettings) : Json :=
  let headers :=
    match r.headers with
    | some h => h.encode
    | none => .null
  .object [("name", .text r.name), ("host", .ofOption r.host),
    ("path_prefix", .ofOption r.pathPrefix), ("upstream", .text r.upstreamUri),
    ("priority", .natural r.priority), ("capture", .bool r.capture), ("headers", headers)]

/-- All settings. -/
def Settings.encode (s : Settings) : Json :=
  .object [("listener", .object [("bind_address", .text s.listener.bindAddress)]),
    ("timeouts", .object [("connect_secs", .natural s.timeouts.connect),
      ("request_secs", .natural s.timeouts.request)]),
    ("observability", s.observability.encode),
    ("capture", s.capture.encode),
    ("access_log", s.accessLog.encode),
    ("routes", .array (s.routes.map RouteSettings.encode))]

end Wiretap.Config
