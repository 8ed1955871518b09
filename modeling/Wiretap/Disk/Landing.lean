/-
  Wiretap.Disk.Landing
  ────────────────────
  **WRITES THAT LAND IN PIECES.**

  A file may take less than it is offered, nothing at all, or refuse.  `land` offers data
  again from where it stopped, until all of it has landed, the file has made no progress
  too often in a row, or the file refuses.  What a file will do is a list of responses;
  behind the end of the list it takes everything.
-/
import Wiretap.Bytes
import Wiretap.Disk.Fault

namespace Wiretap

/-- How the disk answers one request. -/
inductive Response
  /-- It does what is asked. -/
  | comply
  /-- It takes at most so many bytes of a write; any other request it grants. -/
  | short (most : Nat)
  /-- It fails. -/
  | refuse (fault : Fault)
  deriving DecidableEq, Repr

/-- How the landing of some data ended. -/
inductive LandingEnd
  /-- All data landed. -/
  | complete
  /-- The file made no progress in so many attempts in a row. -/
  | stalled (attempts : Nat)
  /-- The file refused. -/
  | refused (fault : Fault)
  deriving DecidableEq, Repr

/-- One attempt: the offset, and the bytes that landed there. -/
structure Attempt where
  offset : Nat
  landed : Bytes
  deriving DecidableEq, Repr

/-- What became of some data. -/
structure Landing where
  /-- The attempts, in order. -/
  attempts : List Attempt
  /-- Where the next byte would land. -/
  offset : Nat
  /-- The responses that were not needed. -/
  rest : List Response
  outcome : LandingEnd
  deriving DecidableEq, Repr

namespace Landing

/-- The landing with one attempt in front. -/
def after (attempt : Attempt) (l : Landing) : Landing :=
  { l with attempts := attempt :: l.attempts }

/-- The bytes that landed, in order. -/
def landed (l : Landing) : Bytes := l.attempts.flatMap (·.landed)

end Landing

/-- Lands `data` at `offset`, giving up after `limit` attempts in a row without progress;
`idle` counts those so far.  An interrupted attempt counts neither as progress nor
against the limit. -/
def land (limit : Nat) : (responses : List Response) → (idle offset : Nat) → Bytes → Landing
  | responses, _, offset, [] => ⟨[], offset, responses, .complete⟩
  | [], _, offset, b :: data =>
    ⟨[⟨offset, b :: data⟩], offset + (data.length + 1), [], .complete⟩
  | .comply :: rest, _, offset, b :: data =>
    ⟨[⟨offset, b :: data⟩], offset + (data.length + 1), rest, .complete⟩
  | .short 0 :: rest, idle, offset, b :: data =>
    if limit ≤ idle + 1 then ⟨[⟨offset, []⟩], offset, rest, .stalled (idle + 1)⟩
    else (land limit rest (idle + 1) offset (b :: data)).after ⟨offset, []⟩
  | .short (n + 1) :: rest, _, offset, b :: data =>
    (land limit rest 0 (offset + min (n + 1) (data.length + 1)) (data.drop n)).after
      ⟨offset, b :: data.take n⟩
  | .refuse fault :: rest, idle, offset, b :: data =>
    if fault = .interrupted then
      (land limit rest idle offset (b :: data)).after ⟨offset, []⟩
    else ⟨[⟨offset, []⟩], offset, rest, .refused fault⟩

/-- How many attempts without progress end the landing in a capture file. -/
def maxIdleAttempts : Nat := 10

end Wiretap
