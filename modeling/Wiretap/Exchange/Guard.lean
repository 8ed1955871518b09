/-
  Wiretap.Exchange.Guard
  ──────────────────────
  **COMPLETING AN EXCHANGE ONCE.**

  A guard holds an exchange that is not over yet.  Whatever happens first, the end of the
  response, an error in it, or the guard being let go of, takes the exchange out of it:
  its taps are closed, and then it is handed to the log.
-/
import Wiretap.Exchange.Completed
import Wiretap.Exchange.Tap

namespace Wiretap

/-! ## §1. Traffic. -/

/-- Exchanges that are under way, and the log they will go to. -/
structure Traffic where
  site : Site
  recording : Recording
  /-- All taps, by number. -/
  taps : List Tap

namespace Traffic

/-- With the store changed. -/
def withStore (t : Traffic) (store : Store) : Traffic := { t with site := t.site.withStore store }

/-- Adds a tap; its number is that of taps before it. -/
def addTap (t : Traffic) (tap : Tap) : Traffic := { t with taps := t.taps ++ [tap] }

/-- Writes a chunk through a tap. -/
def writeTap (t : Traffic) (number : Nat) (chunk : Bytes) : Traffic :=
  match t.taps[number]? with
  | none => t
  | some tap =>
    let (tap, store) := tap.write t.site.journal.store chunk
    { t with taps := t.taps.set number tap }.withStore store

/-- Closes a tap. -/
def closeTap (t : Traffic) (number : Nat) : Traffic :=
  { t with taps := t.taps.modify number Tap.close }

/-- Closes taps. -/
def closeTaps (t : Traffic) (numbers : List Nat) : Traffic := numbers.foldl closeTap t

/-- Hands an exchange to the log. -/
def complete (t : Traffic) (e : CompletedExchange) : Traffic :=
  { t with site := t.recording.complete t.site e }

end Traffic

/-! ## §2. Guards. -/

/-- An exchange with the numbers of its taps, or nothing once it is over. -/
structure Guard where
  pending : Option (CompletedExchange × List Nat)

namespace Guard

/-- What is noted when a guard is let go of before the response was complete. -/
def abortedMessage : String := "exchange aborted before the response completed"

/-- A guard of an exchange without taps. -/
def new (e : CompletedExchange) : Guard := ⟨some (e, [])⟩

/-- With the exchange changed, if it is not over. -/
def modify (g : Guard) (f : CompletedExchange → CompletedExchange) : Guard :=
  ⟨g.pending.map fun p => (f p.1, p.2)⟩

/-- With one more tap to close. -/
def register (g : Guard) (tap : Nat) : Guard := ⟨g.pending.map fun p => (p.1, p.2 ++ [tap])⟩

/-- With a status. -/
def setStatus (g : Guard) (status : Nat) : Guard :=
  g.modify fun e => { e with status := some status }

/-- With the head of the response. -/
def setResponse (g : Guard) (status : Nat) (headers : Http.Headers) : Guard :=
  g.modify fun e => { e with status := some status, responseHeaders := headers }

/-- The exchange is over, for the given reason unless one is known already: its taps are
closed, and it is handed to the log.  Nothing happens when it was over before. -/
def complete (g : Guard) (t : Traffic) (exception : Option String) (elapsed : Time.Span) :
    Guard × Traffic :=
  match g.pending with
  | none => (g, t)
  | some (e, taps) =>
    let e := { e with duration := elapsed, exception := e.exception.or exception }
    (⟨none⟩, (t.closeTaps taps).complete e)

/-- The guard is let go of. -/
def drop (g : Guard) (t : Traffic) (elapsed : Time.Span) : Traffic :=
  (g.complete t (some abortedMessage) elapsed).2

end Guard

end Wiretap
