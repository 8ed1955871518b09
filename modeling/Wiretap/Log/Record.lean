/-
  Wiretap.Log.Record
  ──────────────────
  **THE RECORD OF ONE EXCHANGE.**

  What the log keeps of a finished exchange, and what is to be done once the log is done
  with it.  That happens once: `Record.finish` takes the finalizer out of the record.
-/
import Wiretap.Capture.Body
import Wiretap.Capture.Direction
import Wiretap.Capture.ExchangeId
import Wiretap.Log.Result
import Wiretap.Net.SocketAddress
import Wiretap.Policy.Basic
import Wiretap.Time.Span
import Wiretap.Time.Timestamp

namespace Wiretap

/-! ## §1. Parts of a record. -/

/-- Who was authenticated. -/
structure User where
  realm : String
  username : String
  deriving DecidableEq, Repr

/-- How a record left the log. -/
inductive Disposition
  /-- Every sink was called. -/
  | delivered (result : SinkResult)
  /-- No sink was called. -/
  | dropped
  deriving DecidableEq, Repr

/-- The written form. -/
def Disposition.name : Disposition → String
  | .delivered result => if result.isOk then "delivered" else "failed"
  | .dropped => "dropped"

/-- What is to be done when the log is done with a record. -/
inductive Finalizer
  /-- The buffers of the exchange are let go of; logged in full, they go to this archive,
  if there is one. -/
  | settle (archive : Option Path)
  /-- The outcome is told. -/
  | announce
  deriving DecidableEq, Repr

/-! ## §2. Records. -/

/-- One exchange, headers filtered and bodies unread. -/
structure Record where
  id : ExchangeId
  method : String
  /-- The URI up to its query or fragment. -/
  path : String
  uri : String
  route : String
  status : Option Nat
  requestHeaders : RecordedHeaders
  responseHeaders : RecordedHeaders
  started : Time.Timestamp
  duration : Time.Span
  remote : Option Net.SocketAddress
  user : Option User
  exception : Option String
  requestBody : Option Body
  responseBody : Option Body
  finalizer : Option Finalizer
  deriving DecidableEq

namespace Record

/-- A URI up to its query or fragment. -/
def pathOf (uri : String) : String :=
  String.ofList (uri.toList.takeWhile fun c => c != '?' && c != '#')

/-- A record that knows only its request line and when it began. -/
def new (id : ExchangeId) (method uri : String) (started : Time.Timestamp) : Record :=
  { id, method, uri, started, path := pathOf uri, route := "", status := none,
    requestHeaders := [], responseHeaders := [], duration := .zero, remote := none,
    user := none, exception := none, requestBody := none, responseBody := none,
    finalizer := none }

/-- Whether the finalizer has not run yet. -/
def isPending (r : Record) : Bool := r.finalizer.isSome

/-- The headers of a direction. -/
def headers (r : Record) : Direction → RecordedHeaders
  | .request => r.requestHeaders
  | .response => r.responseHeaders

/-- The record as it is shown to a reader of diagnostics. -/
def debugText (r : Record) : String :=
  let optional (o : Option String) : String :=
    match o with
    | some s => "Some(" ++ s ++ ")"
    | none => "None"
  "ExchangeRecord \x7b id: " ++ r.id.debugText ++ ", method: " ++ Text.quoted r.method
    ++ ", uri: " ++ Text.quoted r.uri ++ ", route: " ++ Text.quoted r.route
    ++ ", status: " ++ optional (r.status.map toString)
    ++ ", duration: " ++ r.duration.text
    ++ ", exception: " ++ optional (r.exception.map Text.quoted)
    ++ ", pending: " ++ toString r.isPending ++ ", .. \x7d"

/-- The record without its finalizer, and the finalizer. -/
def takeFinalizer (r : Record) : Record × Option Finalizer :=
  ({ r with finalizer := none }, r.finalizer)

end Record

end Wiretap
