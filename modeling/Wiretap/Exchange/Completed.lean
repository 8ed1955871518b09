/-
  Wiretap.Exchange.Completed
  ──────────────────────────
  **FROM A FINISHED EXCHANGE TO A RECORD.**

  When an exchange is over, its headers are filtered, its captured bodies are looked up,
  and the record of it is handed to the log.  The log is a `Site`: a journal with or without
  a queue in front.
-/
import Wiretap.Http.Headers
import Wiretap.Log.Queue

namespace Wiretap

/-! ## §1. Sites. -/

/-- A log that works at once, or in the background where there is a queue. -/
structure Site where
  journal : Journal
  queue : Option Queue

namespace Site

/-- Hands a record to the log. -/
def submit (s : Site) (r : Record) : Site :=
  match s.queue with
  | none => { s with journal := s.journal.submit r }
  | some queue =>
    let b := Background.submit ⟨s.journal, queue⟩ r
    ⟨b.journal, some b.queue⟩

/-- With the store changed. -/
def withStore (s : Site) (store : Store) : Site := { s with journal := { s.journal with store } }

end Site

/-! ## §2. Finished exchanges. -/

/-- What is known of an exchange that is over. -/
structure CompletedExchange where
  id : ExchangeId
  method : String
  uri : String
  route : String
  /-- The policy of its route; without one the general policy holds. -/
  policy : Option Policy
  status : Option Nat
  requestHeaders : Http.Headers
  responseHeaders : Http.Headers
  started : Time.Timestamp
  duration : Time.Span
  remote : Option Net.SocketAddress
  user : Option User
  exception : Option String

/-- How finished exchanges are recorded. -/
structure Recording where
  /-- The policy for exchanges without one of their own. -/
  policy : Policy
  /-- The base of the archive, if logged exchanges are archived. -/
  archive : Option Path

namespace Recording

/-- The coding that a message names for its body; only the first field counts. -/
def contentCoding (h : Http.Headers) : Option String := h.text? "content-encoding"

/-- The record of an exchange. -/
def assemble (p : Recording) (s : Store) (e : CompletedExchange) : Record :=
  let policy := e.policy.getD p.policy
  { Record.new e.id e.method e.uri e.started with
    route := e.route
    status := e.status
    requestHeaders := policy.filter e.requestHeaders
    responseHeaders := policy.filter e.responseHeaders
    duration := e.duration
    remote := e.remote
    user := e.user
    exception := e.exception
    requestBody := s.get .request e.id (contentCoding e.requestHeaders)
    responseBody := s.get .response e.id (contentCoding e.responseHeaders)
    finalizer := some (.settle p.archive) }

/-- Hands an exchange to the log. -/
def complete (p : Recording) (s : Site) (e : CompletedExchange) : Site :=
  s.submit (p.assemble s.journal.store e)

end Recording

end Wiretap
