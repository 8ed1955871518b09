/-
  Wiretap.Capture.Buffer
  ──────────────────────
  **ONE DIRECTION OF ONE EXCHANGE.**

  A buffer begins in memory and moves to a file, its spill, once it would outgrow a
  threshold; it never moves back.
-/
import Wiretap.Capture.Failure
import Wiretap.Disk.Basic

namespace Wiretap

/-! ## §1. Spills. -/

/-- An open spill file. -/
structure Spill where
  handle : Handle
  path : Path
  /-- Where the next byte goes. -/
  offset : Nat
  deriving DecidableEq, Repr

/-- The failure that the end of a landing stands for. -/
def LandingEnd.check (path : Path) (offset : Nat) : LandingEnd → Except CaptureFailure Unit
  | .complete => .ok ()
  | .stalled attempts => .error (.stalled path offset attempts)
  | .refused fault => .error (.disk path fault)

namespace Spill

/-- Writes a chunk at the end.  Also when that fails, the next byte goes behind what
landed. -/
def append (s : Spill) (disk : Disk) (chunk : Bytes) :
    Except CaptureFailure Unit × Spill × Disk :=
  let (landing, disk) := disk.write maxIdleAttempts s.handle s.offset chunk
  (landing.outcome.check s.path landing.offset, { s with offset := landing.offset }, disk)

/-- Writes parts in order, up to the first that fails. -/
def appendAll (s : Spill) (disk : Disk) :
    (parts : List Bytes) → Except CaptureFailure Unit × Spill × Disk
  | [] => (.ok (), s, disk)
  | part :: parts =>
    match s.append disk part with
    | (.ok (), s, disk) => appendAll s disk parts
    | stopped => stopped

/-- Makes the file, or empties it, and writes parts to it; it is removed when that fails. -/
def create (disk : Disk) (path : Path) (parts : List Bytes) :
    Except CaptureFailure Spill × Disk :=
  match disk.openFile path true with
  | (.error fault, disk) => (.error (.spillover path fault), disk)
  | (.ok handle, disk) =>
    match (Spill.mk handle path 0).appendAll disk parts with
    | (.ok (), spill, disk) => (.ok spill, disk)
    | (.error failure, _, disk) => (.error failure, (disk.removeFile path).2)

end Spill

/-! ## §2. Buffers. -/

/-- Where a buffer keeps its bytes. -/
inductive BufferMode
  | inMemory
  | onDisk
  deriving DecidableEq, Repr

/-- What has been captured so far. -/
inductive Buffer
  | inMemory (bytes : Bytes)
  | onDisk (spill : Spill)
  deriving DecidableEq, Repr

namespace Buffer

/-- Where the bytes are. -/
def mode : Buffer → BufferMode
  | .inMemory _ => .inMemory
  | .onDisk _ => .onDisk

/-- How many bytes have been captured. -/
def size : Buffer → Nat
  | .inMemory bytes => bytes.length
  | .onDisk spill => spill.offset

/-- The path of the spill, if there is one. -/
def path? : Buffer → Option Path
  | .inMemory _ => none
  | .onDisk spill => some spill.path

/-- The buffer of a first chunk, and whether it went to disk at once. -/
def create (disk : Disk) (chunk : Bytes) (threshold : Nat) (path : Path) :
    Except CaptureFailure (Buffer × Bool) × Disk :=
  if threshold < chunk.length then
    match Spill.create disk path [chunk] with
    | (.ok spill, disk) => (.ok (.onDisk spill, true), disk)
    | (.error failure, disk) => (.error failure, disk)
  else (.ok (.inMemory chunk, false), disk)

/-- The buffer with one more chunk, and whether that moved it to disk. -/
def append (buffer : Buffer) (disk : Disk) (chunk : Bytes) (threshold : Nat) (path : Path) :
    Except CaptureFailure Bool × Buffer × Disk :=
  match buffer with
  | .inMemory bytes =>
    if threshold < bytes.length + chunk.length then
      match Spill.create disk path [bytes, chunk] with
      | (.ok spill, disk) => (.ok true, .onDisk spill, disk)
      | (.error failure, disk) => (.error failure, buffer, disk)
    else (.ok false, .inMemory (bytes ++ chunk), disk)
  | .onDisk spill =>
    match spill.append disk chunk with
    | (.ok (), spill, disk) => (.ok false, .onDisk spill, disk)
    | (.error failure, spill, disk) => (.error failure, .onDisk spill, disk)

/-- The buffer with one more chunk, made for it if there is none yet, and whether that moved
it to disk. -/
def write (held : Option Buffer) (disk : Disk) (chunk : Bytes) (threshold : Nat) (path : Path) :
    Except CaptureFailure Bool × Option Buffer × Disk :=
  match held with
  | some buffer =>
    let (outcome, buffer, disk) := buffer.append disk chunk threshold path
    (outcome, some buffer, disk)
  | none =>
    match create disk chunk threshold path with
    | (.ok (buffer, spilled), disk) => (.ok spilled, some buffer, disk)
    | (.error failure, disk) => (.error failure, none, disk)

end Buffer

end Wiretap
