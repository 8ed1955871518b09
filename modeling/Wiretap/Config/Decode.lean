/-
  Wiretap.Config.Decode
  ─────────────────────
  **SETTINGS FROM TOML.**

  Each section is read entry by entry in the order of the document; what no setting is
  named after is passed over.  The first entry that does not fit ends the reading.  A
  section may also be written as an array, its values in the order of the settings.
-/
import Wiretap.Config.Settings
import Wiretap.Toml.Value

namespace Wiretap.Config

/-! ## §1. Problems. -/

/-- Why a value is not a setting. -/
inductive DecodeProblem
  /-- It is of the wrong kind, or out of range. -/
  | wrongKind
  | missingField (name : String)
  /-- It is none of the names that are known. -/
  | unknownVariant (name : String) (known : List String)
  deriving DecidableEq, Repr

/-- A name in the quotes of a message. -/
def marked (name : String) : String := "`" ++ name ++ "`"

/-- The wording of a problem, where it is one of those that are told apart. -/
def DecodeProblem.message? : DecodeProblem → Option String
  | .wrongKind => none
  | .missingField name => some ("missing field " ++ marked name)
  | .unknownVariant name known =>
    let expected :=
      match known with
      | [a, b] => marked a ++ " or " ++ marked b
      | _ => "one of " ++ String.intercalate ", " (known.map marked)
    some ("unknown variant " ++ marked name ++ ", expected " ++ expected)

/-- What is read, or what is wrong. -/
abbrev Decoded := Except DecodeProblem

/-! ## §2. Single values. -/

/-- A text. -/
def text : Toml → Decoded String
  | .text s => .ok s
  | _ => .error .wrongKind

/-- A truth value. -/
def boolean : Toml → Decoded Bool
  | .boolean b => .ok b
  | _ => .error .wrongKind

/-- A natural number below `size`. -/
def natural (size : Nat) : Toml → Decoded Nat
  | .integer i => if 0 ≤ i && i < size then .ok i.toNat else .error .wrongKind
  | _ => .error .wrongKind

/-- Whether a value stands for a name alone when it is put under the name. -/
def isBare : Toml → Bool
  | .array [] => true
  | .table [] => true
  | _ => false

/-- One of the names that are known: a text, or a table with nothing under one name. -/
def variant {α : Type} (known : List (String × α)) (v : Toml) : Decoded α :=
  let named (name : String) : Decoded α :=
    match known.find? (·.1 == name) with
    | some (_, a) => .ok a
    | none => .error (.unknownVariant name (known.map (·.1)))
  match v with
  | .text name => named name
  | .table [(name, content)] => do
    let a ← named name
    if isBare content then return a else .error .wrongKind
  | _ => .error .wrongKind

/-- The entries of a value that is read as a table; of a date or a time, its text alone under
no name. -/
def entries? : Toml → Option (List (String × Toml))
  | .table entries => some entries
  | .moment written => some [("", .text written)]
  | _ => none

/-- The entries of a section with settings of these names. -/
def section? (names : List String) : Toml → Decoded (List (String × Toml))
  | .array items => .ok (names.zip items)
  | v =>
    match entries? v with
    | some entries => .ok entries
    | none => .error .wrongKind

/-! ## §3. Sections. -/

/-- The rules that can be written for a header. -/
def ruleNames : List (String × Rule) := [("keep", .keep), ("redact", .redact), ("delete", .delete)]

/-- Rules by header name. -/
def ruleMap (v : Toml) : Decoded (Std.ExtTreeMap String Rule compare) :=
  match entries? v with
  | none => .error .wrongKind
  | some entries =>
    entries.foldlM (fun rules (name, v) => do
      let rule ← variant ruleNames v
      return rules.insert name rule) ∅

/-- The two sets of header rules. -/
def HeaderRules.decode (v : Toml) : Decoded HeaderRules := do
  let entries ← section? ["include", "exclude"] v
  entries.foldlM (fun (h : HeaderRules) (key, v) => do
    match key with
    | "include" => return { h with includes := ← ruleMap v }
    | "exclude" => return { h with excludes := ← ruleMap v }
    | _ => return h) {}

/-- The listener. -/
def Listener.decode (v : Toml) : Decoded Listener := do
  let entries ← section? ["bind_address"] v
  entries.foldlM (fun (l : Listener) (key, v) => do
    match key with
    | "bind_address" => return { l with bindAddress := ← text v }
    | _ => return l) {}

/-- The timeouts. -/
def Timeouts.decode (v : Toml) : Decoded Timeouts := do
  let entries ← section? ["connect_secs", "request_secs"] v
  entries.foldlM (fun (t : Timeouts) (key, v) => do
    match key with
    | "connect_secs" => return { t with connect := ← natural UInt64.size v }
    | "request_secs" => return { t with request := ← natural UInt64.size v }
    | _ => return t) {}

/-- What can be seen of a running proxy. -/
def Observability.decode (v : Toml) : Decoded Observability := do
  let names := ["log_level", "log_format", "metrics_enabled", "metrics_address"]
  let entries ← section? names v
  entries.foldlM (fun (o : Observability) (key, v) => do
    match key with
    | "log_level" => return { o with logLevel := ← text v }
    | "log_format" =>
      return { o with logFormat := ← variant [("pretty", .pretty), ("json", .json)] v }
    | "metrics_enabled" => return { o with metricsEnabled := ← boolean v }
    | "metrics_address" => return { o with metricsAddress := ← text v }
    | _ => return o) {}

/-- Whether and where exchanges are archived. -/
def Archive.decode (v : Toml) : Decoded Archive := do
  let entries ← section? ["enabled", "base_dir"] v
  entries.foldlM (fun (a : Archive) (key, v) => do
    match key with
    | "enabled" => return { a with enabled := ← boolean v }
    | "base_dir" => return { a with baseDirectory := ← text v }
    | _ => return a) {}

/-- Whether and how bodies are captured. -/
def Capture.decode (v : Toml) : Decoded Capture := do
  let names := ["enabled", "buffer_dir", "memory_threshold_bytes", "headers", "archive"]
  let entries ← section? names v
  entries.foldlM (fun (c : Capture) (key, v) => do
    match key with
    | "enabled" => return { c with enabled := ← boolean v }
    | "buffer_dir" => return { c with bufferDirectory := ← text v }
    | "memory_threshold_bytes" => return { c with memoryThreshold := ← natural UInt64.size v }
    | "headers" => return { c with headers := ← HeaderRules.decode v }
    | "archive" => return { c with archive := ← Archive.decode v }
    | _ => return c) {}

/-! ## §4. Lists of sections. -/

/-- The items of an array, each read in turn. -/
def listOf {α : Type} (item : Toml → Decoded α) : Toml → Decoded (List α)
  | .array items => items.mapM item
  | _ => .error .wrongKind

/-- The kinds of sinks. -/
inductive SinkKind
  | jsonLines
  | tracing
  deriving DecidableEq

/-- The names of the kinds of sinks. -/
def sinkKinds : List (String × SinkKind) := [("json_lines", .jsonLines), ("tracing", .tracing)]

/-- The kind that a text names. -/
def sinkKind : Toml → Decoded SinkKind
  | .text name => variant sinkKinds (.text name)
  | _ => .error .wrongKind

/-- The settings of a sink that writes lines. -/
def lineSink (entries : List (String × Toml)) : Decoded SinkSettings := do
  let start : Option String × Bool × Nat := (none, false, defaultMaxBodyBytes)
  let (path, includeBodies, maxBodyBytes) ← entries.foldlM (fun (path, bodies, most) (key, v) => do
    match key with
    | "path" => return (some (← text v), bodies, most)
    | "include_bodies" => return (path, ← boolean v, most)
    | "max_body_bytes" => return (path, bodies, ← natural UInt64.size v)
    | _ => return (path, bodies, most)) start
  match path with
  | some path => return .jsonLines path includeBodies maxBodyBytes
  | none => .error (.missingField "path")

/-- The settings of a sink that writes lines, in their order. -/
def lineSinkNames : List String := ["path", "include_bodies", "max_body_bytes"]

/-- A sink: its kind under `type`, or first in an array, which then holds nothing but the
settings of that kind. -/
def SinkSettings.decode (v : Toml) : Decoded SinkSettings :=
  match v with
  | .array [] => .error (.missingField "type")
  | .array (kind :: rest) => do
    match ← sinkKind kind with
    | .tracing => if rest.isEmpty then return .tracing else .error .wrongKind
    | .jsonLines =>
      if rest.isEmpty || lineSinkNames.length < rest.length then .error .wrongKind
      else lineSink (lineSinkNames.zip rest)
  | v =>
    match entries? v with
    | none => .error .wrongKind
    | some entries =>
      match entries.find? (·.1 == "type") with
      | none => .error (.missingField "type")
      | some (_, kind) => do
        match ← sinkKind kind with
        | .tracing => return .tracing
        | .jsonLines => lineSink entries

/-- The ways in which records reach the sinks. -/
def modeNames : List (String × DispatchMode) := [("sync", .direct), ("async", .queued)]

/-- How exchanges are logged. -/
def AccessLog.decode (v : Toml) : Decoded AccessLog := do
  let names := ["mode", "queue_capacity", "shutdown_grace_secs", "drop_log_threshold", "sinks"]
  let entries ← section? names v
  entries.foldlM (fun (a : AccessLog) (key, v) => do
    match key with
    | "mode" => return { a with mode := ← variant modeNames v }
    | "queue_capacity" => return { a with queueCapacity := ← natural UInt64.size v }
    | "shutdown_grace_secs" => return { a with shutdownGrace := ← natural UInt64.size v }
    | "drop_log_threshold" => return { a with dropLogThreshold := ← natural UInt64.size v }
    | "sinks" => return { a with sinks := ← listOf SinkSettings.decode v }
    | _ => return a) {}

/-- The settings of a route that have been read so far. -/
structure RouteDraft where
  name : Option String := none
  upstreamUri : Option String := none
  /-- What the route is when both are known. -/
  rest : RouteSettings := ⟨"", none, none, "", 0, true, none⟩

/-- A draft with one more entry. -/
def RouteDraft.add (d : RouteDraft) (entry : String × Toml) : Decoded RouteDraft := do
  let v := entry.2
  match entry.1 with
  | "name" => return { d with name := some (← text v) }
  | "host" => return { d with rest := { d.rest with host := some (← text v) } }
  | "path_prefix" => return { d with rest := { d.rest with pathPrefix := some (← text v) } }
  | "upstream" => return { d with upstreamUri := some (← text v) }
  | "priority" => return { d with rest := { d.rest with priority := ← natural UInt32.size v } }
  | "capture" => return { d with rest := { d.rest with capture := ← boolean v } }
  | "headers" =>
    return { d with rest := { d.rest with headers := some (← HeaderRules.decode v) } }
  | _ => return d

/-- The settings of a route in their order. -/
def routeNames : List String :=
  ["name", "host", "path_prefix", "upstream", "priority", "capture", "headers"]

/-- How many settings of a route an array must give. -/
def requiredRouteItems : Nat := 4

/-- A route. -/
def RouteSettings.decode (v : Toml) : Decoded RouteSettings := do
  let entries ← section? routeNames v
  let draft ← entries.foldlM RouteDraft.add {}
  let short : Bool :=
    match v with
    | .array items => items.length < requiredRouteItems
    | _ => false
  match draft.name, draft.upstreamUri with
  | some name, some upstreamUri =>
    if short then .error .wrongKind else return { draft.rest with name, upstreamUri }
  | none, _ => .error (if short then .wrongKind else .missingField "name")
  | some _, none => .error (if short then .wrongKind else .missingField "upstream")

/-! ## §5. All settings. -/

/-- The settings of a document. -/
def Settings.decode (entries : List (String × Toml)) : Decoded Settings :=
  entries.foldlM (fun (s : Settings) (key, v) => do
    match key with
    | "listener" => return { s with listener := ← Listener.decode v }
    | "timeouts" => return { s with timeouts := ← Timeouts.decode v }
    | "observability" => return { s with observability := ← Observability.decode v }
    | "capture" => return { s with capture := ← Capture.decode v }
    | "access_log" => return { s with accessLog := ← AccessLog.decode v }
    | "routes" => return { s with routes := ← listOf RouteSettings.decode v }
    | _ => return s) {}

end Wiretap.Config
