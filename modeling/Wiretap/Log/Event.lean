/-
  Wiretap.Log.Event
  ─────────────────
  **EVENTS FOR THE DIAGNOSTIC LOG.**

  An event is a message with fields; `Event.fields` gives both as the members of a JSON
  object.
-/
import Wiretap.Json.Value
import Wiretap.Log.Record

namespace Wiretap

/-- A finished exchange in a few words. -/
structure Completion where
  id : ExchangeId
  method : String
  uri : String
  route : String
  /-- The status, or a dash. -/
  status : String
  durationMillis : UInt64
  /-- The remote address, or a dash. -/
  remote : String
  user : Option String
  requestBytes : Option Nat
  responseBytes : Option Nat
  exception : Option String
  deriving DecidableEq, Repr

/-- What an event tells of a record; bodies by their size, unread. -/
def Completion.ofRecord (r : Record) : Completion :=
  { id := r.id, method := r.method, uri := r.uri, route := r.route,
    status := (r.status.map toString).getD "-", durationMillis := r.duration.wholeMillis,
    remote := (r.remote.map (·.text)).getD "-", user := r.user.map (·.username),
    requestBytes := r.requestBody.map (·.size), responseBytes := r.responseBody.map (·.size),
    exception := r.exception }

/-- Why a record is not taken. -/
inductive RejectReason
  | queueFull
  | loggerStopped
  deriving DecidableEq, Repr

/-- The wording of a reason. -/
def RejectReason.text : RejectReason → String
  | .queueFull => "queue full"
  | .loggerStopped => "logger stopped"

/-- A route as it is announced. -/
structure RouteNotice where
  name : String
  upstreamUri : String
  priority : Nat
  capture : Bool
  deriving DecidableEq, Repr

/-- An event. -/
inductive Event
  | completed (c : Completion)
  /-- Records are being dropped; so many up to now. -/
  | dropping (id : ExchangeId) (total : Nat) (reason : RejectReason)
  | routeRegistered (r : RouteNotice)
  deriving DecidableEq, Repr

/-- The wording of an event. -/
def Event.message : Event → String
  | .completed _ => "Exchange completed"
  | .dropping .. => "Access log dropping exchanges"
  | .routeRegistered _ => "Route registered"

/-- The fields of a finished exchange; what is not known is left out. -/
def Completion.fields (c : Completion) : List (String × Json) :=
  let known {α : Type} (name : String) (f : α → Json) (value : Option α) : List (String × Json) :=
    (value.map fun a => (name, f a)).toList
  [("exchange_id", .text c.id.text), ("method", .text c.method), ("uri", .text c.uri),
    ("route", .text c.route), ("status", .text c.status),
    ("duration_ms", .natural c.durationMillis.toNat), ("remote_addr", .text c.remote)]
    ++ known "user" .text c.user ++ known "request_bytes" .natural c.requestBytes
    ++ known "response_bytes" .natural c.responseBytes ++ known "exception" .text c.exception

/-- The fields of an announced route. -/
def RouteNotice.fields (r : RouteNotice) : List (String × Json) :=
  [("route", .text r.name), ("upstream", .text r.upstreamUri), ("priority", .natural r.priority),
    ("capture", .bool r.capture)]

/-- The message and the fields of an event. -/
def Event.fields (e : Event) : List (String × Json) :=
  ("message", .text e.message) :: match e with
    | .completed c => c.fields
    | .dropping id total reason =>
      [("exchange_id", .text id.text), ("total_drops", .natural total),
        ("reason", .text reason.text)]
    | .routeRegistered r => r.fields

end Wiretap
