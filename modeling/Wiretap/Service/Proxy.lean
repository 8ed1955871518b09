/-
  Wiretap.Service.Proxy
  ─────────────────────
  **HANDLING A REQUEST.**

  A request finds its route, becomes an exchange and is sent on under a new URI; the
  response is passed back and completes the exchange.  Sending and receiving are not done
  here: `Proxy.receive` says what is to be sent, and `Proxy.respond` and `Proxy.failed`
  say what to do with what came of it.
-/
import Wiretap.Exchange.Stream
import Wiretap.Route.Forwarding
import Wiretap.Route.Table

namespace Wiretap.Proxy

/-! ## §1. Opening an exchange. -/

/-- The field that carries the identifier of an exchange. -/
def idField : String := "x-exchange-id"

/-- A request as it comes in. -/
structure Request where
  method : String
  uri : Uri
  headers : Http.Headers
  remote : Net.SocketAddress
  user : Option User

/-- The headers of a request with the identifier of its exchange in them. -/
def marked (headers : Http.Headers) (id : ExchangeId) : Http.Headers :=
  headers.replace idField (Utf8.encode id.text)

/-- The exchange that a request on a route opens. -/
def openExchange (route : Route) (request : Request) (id : ExchangeId)
    (started : Time.Timestamp) : CompletedExchange :=
  { id, started, method := request.method, uri := request.uri.text, route := route.name,
    policy := some route.policy, status := none, requestHeaders := marked request.headers id,
    responseHeaders := .empty, duration := .zero, remote := some request.remote,
    user := request.user, exception := none }

/-- The status of an answer when the upstream cannot be used. -/
def badGateway : Nat := 502

/-- A request that is to be sent on. -/
structure Forwarded where
  method : String
  target : Uri
  headers : Http.Headers
  guard : Guard
  /-- The number of the tap that the request body goes through, if it is captured. -/
  requestTap : Option Nat
  id : ExchangeId
  capture : Bool

/-- What becomes of a request. -/
inductive Outcome
  /-- No route is for it. -/
  | noRoute
  /-- Its URI cannot be mapped onto the upstream; the exchange is over. -/
  | unmappable
  | forwarded (f : Forwarded)

/-- Takes a request. -/
def receive (routes : RouteTable) (t : Traffic) (request : Request) (id : ExchangeId)
    (started : Time.Timestamp) (elapsed : Time.Span) : Outcome × Traffic :=
  match routes.find? (.ofRequest request.uri request.headers) with
  | none => (.noRoute, t)
  | some route =>
    let exchange := openExchange route request id started
    let capture := route.capture && t.site.journal.store.repository.enabled
    let number := t.taps.length
    let t := if capture then t.addTap (.new id .request) else t
    let guard := if capture then (Guard.new exchange).register number else Guard.new exchange
    match route.upstreamBase.mapOnto request.uri with
    | none =>
      let reason := "cannot map " ++ request.uri.text ++ " onto upstream "
        ++ route.upstreamBase.text
      let (_, t) := (guard.setStatus badGateway).complete t (some reason) elapsed
      (.unmappable, t)
    | some target =>
      (.forwarded ⟨request.method, target, exchange.requestHeaders, guard,
        if capture then some number else none, id, capture⟩, t)

/-! ## §2. Finishing it. -/

/-- The upstream could not be asked. -/
def failed (f : Forwarded) (t : Traffic) (reason : String) (elapsed : Time.Span) : Traffic :=
  let reason := "upstream request failed: " ++ reason
  ((f.guard.setStatus badGateway).complete t (some reason) elapsed).2

/-- The upstream answered: the headers to pass back, and the body. -/
def respond (f : Forwarded) (t : Traffic) (status : Nat) (headers : Http.Headers)
    (items : List BodyItem) (hangs : Bool) (elapsed : Time.Span) :
    Http.Headers × ResponseBody × Traffic :=
  let expected := Http.expectedLength f.method status headers
  let guard := f.guard.setResponse status headers
  let number := t.taps.length
  let (stream, guard, t) :=
    if f.capture then
      (BodyStream.through items hangs number, guard.register number,
        t.addTap (.new f.id .response))
    else (BodyStream.plain items hangs, guard, t)
  let (body, t) := ResponseBody.start stream guard expected t elapsed
  (marked headers f.id, body, t)

end Wiretap.Proxy
