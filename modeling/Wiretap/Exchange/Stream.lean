/-
  Wiretap.Exchange.Stream
  ───────────────────────
  **RESPONSES THAT COMPLETE THEIR EXCHANGE.**

  A response body yields what its stream yields.  The exchange is over when the declared
  number of bytes has been yielded, when the stream ends, or when it fails; and when the
  body is let go of before any of these.
-/
import Wiretap.Exchange.Guard

namespace Wiretap

/-! ## §1. Asking a stream. -/

namespace BodyStream

/-- Asks a stream once.  A chunk that goes through a tap is written first, and passed on
the next time. -/
def poll (s : BodyStream) (t : Traffic) : Polled × BodyStream × Traffic :=
  match s.held with
  | some i => (.item i, { s with held := none }, t)
  | none =>
    match s.items with
    | [] => (if s.hangs then .pending else .finished, s, t)
    | i :: rest =>
      let s := { s with items := rest }
      match s.tap, i with
      | some number, .chunk bytes =>
        if i.isWritten then (.pending, { s with held := some i }, t.writeTap number bytes)
        else (.item i, s, t)
      | _, _ => (.item i, s, t)

/-- Asks a stream until it yields something; one that hangs stays pending. -/
def next (s : BodyStream) (t : Traffic) : Polled × BodyStream × Traffic :=
  match s.poll t with
  | (.pending, s, t) => s.poll t
  | yielded => yielded

end BodyStream

/-! ## §2. Response bodies. -/

/-- A response body and the guard of its exchange. -/
structure ResponseBody where
  stream : BodyStream
  guard : Guard
  /-- How many declared bytes have not been yielded, if the number is declared. -/
  remaining : Option Nat

namespace ResponseBody

/-- What is noted when the stream fails. -/
def failureMessage (message : String) : String := "response body failed: " ++ message

/-- A response body.  An exchange whose response has no bytes is over at once. -/
def start (stream : BodyStream) (guard : Guard) (expected : Option Nat) (t : Traffic)
    (elapsed : Time.Span) : ResponseBody × Traffic :=
  if expected = some 0 then
    let (guard, t) := guard.complete t none elapsed
    (⟨stream, guard, expected⟩, t)
  else (⟨stream, guard, expected⟩, t)

/-- What the yield of a stream means for the exchange. -/
def observe (b : ResponseBody) (yielded : Polled) (t : Traffic) (elapsed : Time.Span) :
    ResponseBody × Traffic :=
  let ended (b : ResponseBody) (exception : Option String) : ResponseBody × Traffic :=
    let (guard, t) := b.guard.complete t exception elapsed
    ({ b with guard }, t)
  match yielded with
  | .pending => (b, t)
  | .finished => ended b none
  | .item (.failed message) => ended b (some (failureMessage message))
  | .item (.chunk bytes) =>
    match b.remaining with
    | none => (b, t)
    | some remaining =>
      let left := remaining - bytes.length
      let b := { b with remaining := some left }
      if left = 0 then ended b none else (b, t)

/-- Asks the body once. -/
def poll (b : ResponseBody) (t : Traffic) (elapsed : Time.Span) :
    Polled × ResponseBody × Traffic :=
  let (yielded, stream, t) := b.stream.poll t
  let (b, t) := { b with stream }.observe yielded t elapsed
  (yielded, b, t)

/-- Asks the body until it yields something. -/
def next (b : ResponseBody) (t : Traffic) (elapsed : Time.Span) :
    Polled × ResponseBody × Traffic :=
  match b.poll t elapsed with
  | (.pending, b, t) => b.poll t elapsed
  | yielded => yielded

/-- The body is let go of. -/
def drop (b : ResponseBody) (t : Traffic) (elapsed : Time.Span) : Traffic :=
  b.guard.drop t elapsed

end ResponseBody

end Wiretap
