/-
  Wiretap.Log.LineFile
  ────────────────────
  **A LOG FILE WITH A BUFFER IN FRONT.**

  Lines go through a buffer of fixed capacity to the end of a file.  What could not be
  written stays in the buffer and goes first the next time; a line that is too long for
  the buffer goes to the file at once.
-/
import Wiretap.Log.AccessLine

namespace Wiretap

/-- A file that lines are added to. -/
structure LineFile where
  path : Path
  handle : Handle
  /-- Bytes that are not in the file yet. -/
  pending : Bytes
  deriving DecidableEq, Repr

namespace LineFile

/-- How many bytes the buffer holds. -/
def capacity : Nat := 8192

/-- Opens a file for adding lines, with the directories above it. -/
def open? (disk : Disk) (path : Path) : Except Fault LineFile × Disk :=
  let prepared : Except Fault Unit × Disk :=
    match path.parent? with
    | some above => if above.text == "" then (.ok (), disk) else disk.makeDirectories above
    | none => (.ok (), disk)
  match prepared with
  | (.error fault, disk) => (.error fault, disk)
  | (.ok (), disk) =>
    match disk.openFile path false with
    | (.ok handle, disk) => (.ok ⟨path, handle, []⟩, disk)
    | (.error fault, disk) => (.error fault, disk)

/-- Writes data to the end of the file; gives what did not land. -/
def append (f : LineFile) (disk : Disk) (data : Bytes) : Except Fault Unit × Bytes × Disk :=
  let length := ((disk.contentOf f.handle).getD []).length
  let (landing, disk) := disk.write 1 f.handle length data
  let left := data.drop landing.landed.length
  match landing.outcome with
  | .complete => (.ok (), left, disk)
  | .stalled _ => (.error .writeZero, left, disk)
  | .refused fault => (.error fault, left, disk)

/-- Writes what is in the buffer to the file. -/
def flush (f : LineFile) (disk : Disk) : Except Fault Unit × LineFile × Disk :=
  let (outcome, left, disk) := f.append disk f.pending
  (outcome, { f with pending := left }, disk)

/-- Puts a line into the buffer, or where it does not fit, the buffer and then the line
into the file. -/
def put (f : LineFile) (disk : Disk) (line : Bytes) : Except Fault Unit × LineFile × Disk :=
  let spare := capacity - f.pending.length
  if line.length < spare then (.ok (), { f with pending := f.pending ++ line }, disk)
  else
    let made : Except Fault Unit × LineFile × Disk :=
      if spare < line.length then f.flush disk else (.ok (), f, disk)
    match made with
    | (.error fault, f, disk) => (.error fault, f, disk)
    | (.ok (), f, disk) =>
      if capacity ≤ line.length then
        let (outcome, _, disk) := f.append disk line
        (outcome, f, disk)
      else (.ok (), { f with pending := f.pending ++ line }, disk)

/-- Writes one line through to the file. -/
def writeLine (f : LineFile) (disk : Disk) (line : Bytes) :
    Except Fault Unit × LineFile × Disk :=
  match f.put disk line with
  | (.error fault, f, disk) => (.error fault, f, disk)
  | (.ok (), f, disk) => f.flush disk

end LineFile

end Wiretap
