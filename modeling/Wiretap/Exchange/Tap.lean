/-
  Wiretap.Exchange.Tap
  ────────────────────
  **TAPS AND BODY STREAMS.**

  A tap writes the chunks of one direction of one exchange to the repository, until it is
  closed or a write fails.  A body stream yields its items whatever its tap does; behind a
  tap, each chunk is written before it is passed on.
-/
import Wiretap.Capture.Repository

namespace Wiretap

/-! ## §1. Taps. -/

/-- A tap. -/
structure Tap where
  id : ExchangeId
  direction : Direction
  /-- No chunk is written any more, since the exchange is over. -/
  closed : Bool
  /-- No chunk is written any more, since one could not be. -/
  failed : Bool
  deriving DecidableEq, Repr

namespace Tap

/-- An open tap. -/
def new (id : ExchangeId) (direction : Direction) : Tap := ⟨id, direction, false, false⟩

/-- Writes a chunk.  The first failure is counted and ends the capture. -/
def write (t : Tap) (s : Store) (chunk : Bytes) : Tap × Store :=
  if t.closed || t.failed then (t, s)
  else
    match s.write t.direction t.id chunk with
    | (.ok (), s) => (t, s)
    | (.error _, s) =>
      ({ t with failed := true }, { s with metrics := s.metrics.addWriteFailure t.direction })

/-- Refuses further chunks. -/
def close (t : Tap) : Tap := { t with closed := true }

end Tap

/-! ## §2. Body streams. -/

/-- An item of a body. -/
inductive BodyItem
  | chunk (bytes : Bytes)
  /-- The body broke off. -/
  | failed (message : String)
  deriving DecidableEq, Repr

/-- What asking a stream gives. -/
inductive Polled
  /-- Nothing yet. -/
  | pending
  | item (i : BodyItem)
  | finished
  deriving DecidableEq, Repr

/-- A body on its way through. -/
structure BodyStream where
  items : List BodyItem
  /-- Whether it never ends. -/
  hangs : Bool
  /-- The number of the tap it goes through, if it goes through one. -/
  tap : Option Nat
  /-- A chunk that has been written and not yet been passed on. -/
  held : Option BodyItem
  deriving DecidableEq, Repr

/-- A stream that goes through no tap. -/
def BodyStream.plain (items : List BodyItem) (hangs : Bool) : BodyStream := ⟨items, hangs, none, none⟩

/-- A stream that goes through a tap. -/
def BodyStream.through (items : List BodyItem) (hangs : Bool) (tap : Nat) : BodyStream :=
  ⟨items, hangs, some tap, none⟩

/-- Whether an item must be written before it is passed on. -/
def BodyItem.isWritten : BodyItem → Bool
  | .chunk bytes => !bytes.isEmpty
  | .failed _ => false

end Wiretap
