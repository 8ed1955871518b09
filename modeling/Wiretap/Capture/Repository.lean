/-
  Wiretap.Capture.Repository
  ──────────────────────────
  **ALL BUFFERS IN FLIGHT.**

  A repository owns one buffer for each direction of each exchange that has written
  something, and moves buffers to its directory on disk.  The operations work on a
  `Store`: the repository with the disk under it and the counters beside it.

    • `Store.write`       — one more chunk,
    • `Store.get`         — a body to read,
    • `Store.cleanup`, `Store.persist`, `Store.archiveInto` — the three ways to let go.
-/
import Wiretap.Capture.Body
import Wiretap.Capture.Buffer
import Wiretap.Metrics

namespace Wiretap

/-! ## §1. The repository and its files. -/

/-- The owner of all buffers. -/
structure Repository where
  /-- Without it, writes are dropped and there is never a body. -/
  enabled : Bool
  /-- The directory of spill files. -/
  directory : Path
  /-- The most bytes of a buffer in memory. -/
  threshold : Nat
  /-- The buffers of each direction by the text of the exchange identifier. -/
  buffers : PerDirection (Std.ExtTreeMap String Buffer compare)

/-- A repository, the disk under it and the counters. -/
structure Store where
  disk : Disk
  repository : Repository
  metrics : Metrics

namespace Repository

/-- A repository that drops every write. -/
def disabled : Repository := ⟨false, .ofText "", 0, .both ∅⟩

/-- The file name of a spill. -/
def spillName (d : Direction) (id : ExchangeId) : String := id.text ++ "_" ++ d.name ++ ".raw"

/-- The file name of a buffer that is saved from memory. -/
def emergencyName (d : Direction) (id : ExchangeId) : String :=
  id.text ++ "_" ++ d.name ++ ".error.raw"

/-- The spill file of a direction of an exchange. -/
def bufferPath (r : Repository) (d : Direction) (id : ExchangeId) : Path :=
  r.directory.join (spillName d id)

/-- The file in which a buffer is saved from memory. -/
def emergencyPath (r : Repository) (d : Direction) (id : ExchangeId) : Path :=
  r.directory.join (emergencyName d id)

/-- The buffer of a direction of an exchange. -/
def buffer? (r : Repository) (d : Direction) (id : ExchangeId) : Option Buffer :=
  (r.buffers.of d)[id.text]?

/-- With a buffer in its place. -/
def put (r : Repository) (d : Direction) (id : ExchangeId) (b : Buffer) : Repository :=
  { r with buffers := r.buffers.modify d (·.insert id.text b) }

/-- With a buffer in its place, if there is one. -/
def hold (r : Repository) (d : Direction) (id : ExchangeId) : Option Buffer → Repository
  | some b => r.put d id b
  | none => r

/-- Without a buffer. -/
def release (r : Repository) (d : Direction) (id : ExchangeId) : Repository :=
  { r with buffers := r.buffers.modify d (·.erase id.text) }

/-- How many buffers there are. -/
def activeBuffers (r : Repository) : Nat := r.buffers.request.size + r.buffers.response.size

end Repository

namespace Store

/-- An enabled repository that spills into a directory, which is made if it is missing. -/
def open? (disk : Disk) (directory : Path) (threshold : Nat) :
    Except CaptureFailure Store :=
  match disk.makeDirectories directory with
  | (.error fault, _) => .error (.disk directory fault)
  | (.ok (), disk) => .ok ⟨disk, ⟨true, directory, threshold, .both ∅⟩, .zero⟩

/-- A disk with a repository that drops every write. -/
def disabled (disk : Disk) : Store := ⟨disk, .disabled, .zero⟩

/-! ## §2. Writing. -/

/-- Counts a chunk that was written. -/
def counted (s : Store) (d : Direction) (size : Nat) (spilled : Bool) : Store :=
  let metrics := s.metrics.addBytes d size
  { s with metrics := if spilled then metrics.addSpill d else metrics }

/-- Adds a chunk to the buffer of a direction of an exchange.  An empty chunk is ignored. -/
def write (s : Store) (d : Direction) (id : ExchangeId) (chunk : Bytes) :
    Except CaptureFailure Unit × Store :=
  let held := s.repository.buffer? d id
  if !s.repository.enabled || chunk.isEmpty then (.ok (), s)
  else if held.isNone && !id.isPathSafe then (.error (.unusableId id), s)
  else
    let path := s.repository.bufferPath d id
    let (outcome, buffer, disk) := Buffer.write held s.disk chunk s.repository.threshold path
    let written := { s with disk, repository := s.repository.hold d id buffer }
    match outcome with
    | .ok spilled => (.ok (), written.counted d chunk.length spilled)
    | .error failure => (.error failure, written)

/-! ## §3. Looking. -/

/-- The body that a buffer holds at this moment. -/
def bodyOf (coding : ContentCoding) : Buffer → Body
  | .inMemory bytes => ⟨.memory bytes, coding⟩
  | .onDisk spill => ⟨.file spill.path spill.offset, coding⟩

/-- The body of a direction of an exchange, if anything was written. -/
def get (s : Store) (d : Direction) (id : ExchangeId) (coding : Option String) : Option Body :=
  if s.repository.enabled then
    (s.repository.buffer? d id).map (bodyOf (ContentCoding.ofHeader coding))
  else none

/-! ## §4. Letting go. -/

/-- Lets go of one buffer and deletes its spill; whether that succeeds makes no
difference. -/
def cleanupDirection (s : Store) (id : ExchangeId) (d : Direction) : Store :=
  match s.repository.buffer? d id with
  | none => s
  | some buffer =>
    let s := { s with repository := s.repository.release d id }
    match buffer with
    | .inMemory _ => s
    | .onDisk spill => { s with disk := (s.disk.removeFile spill.path).2 }

/-- Lets go of both buffers of an exchange and deletes their spills. -/
def cleanup (s : Store) (id : ExchangeId) : Store :=
  Direction.all.foldl (fun s d => s.cleanupDirection id d) s

/-- Lets go of one buffer and keeps its bytes in a file: a spill stays where it is. -/
def persistDirection (s : Store) (id : ExchangeId) (d : Direction) : Store :=
  match s.repository.buffer? d id with
  | none => s
  | some buffer =>
    let s := { s with repository := s.repository.release d id }
    match buffer with
    | .onDisk _ => s
    | .inMemory bytes =>
      match s.disk.writeFile (s.repository.emergencyPath d id) bytes with
      | (.ok (), disk) =>
        let metrics := s.metrics
        { s with disk, metrics := { metrics with
            emergencyPersists := metrics.emergencyPersists + 1 } }
      | (.error _, disk) => { s with disk }

/-- Lets go of both buffers of an exchange and keeps their bytes in files. -/
def persist (s : Store) (id : ExchangeId) : Store :=
  Direction.all.foldl (fun s d => s.persistDirection id d) s

/-- Writes the bytes of a buffer to an open file at an offset; `path` is that of the open
file. -/
def copyBuffer (disk : Disk) (path : Path) (handle : Handle) (offset : Nat) :
    Buffer → Except CaptureFailure Unit × Disk
  | .inMemory bytes =>
    match disk.writeAll handle offset bytes with
    | (.ok (), disk) => (.ok (), disk)
    | (.error fault, disk) => (.error (.disk path fault), disk)
  | .onDisk spill =>
    match disk.ask with
    | (some fault, disk) => (.error (.disk spill.path fault), disk)
    | (none, disk) =>
      match disk.find spill.path with
      | .error fault => (.error (.disk spill.path fault), disk)
      | .ok (_, .directory) => (.error (.disk path (.system .isADirectory)), disk)
      | .ok (_, .file _ bytes) =>
        match disk.writeAll handle offset bytes with
        | (.ok (), disk) => (.ok (), disk)
        | (.error fault, disk) => (.error (.disk path fault), disk)

/-- Writes an artifact: the preamble and then the bytes of a buffer, if there is one. -/
def writeArtifact (disk : Disk) (path : Path) (preamble : Bytes) (buffer : Option Buffer) :
    Except CaptureFailure Unit × Disk :=
  match disk.openFile path true with
  | (.error fault, disk) => (.error (.disk path fault), disk)
  | (.ok handle, disk) =>
    match disk.writeAll handle 0 preamble with
    | (.error fault, disk) => (.error (.disk path fault), disk)
    | (.ok (), disk) =>
      match buffer with
      | none => (.ok (), disk)
      | some buffer => copyBuffer disk path handle preamble.length buffer

/-- The file name of the artifact of a direction. -/
def artifactName (d : Direction) : String := d.name ++ ".http"

/-- Moves one buffer into an artifact.  Without a buffer an artifact that is there already
is left alone, so that a second attempt never spoils what a first one finished.  The
buffer is let go of only when its artifact is whole. -/
def archiveDirection (s : Store) (id : ExchangeId) (target : Path) (preamble : Bytes)
    (d : Direction) : Except CaptureFailure Path × Store :=
  let artifact := target.join (artifactName d)
  let buffer := s.repository.buffer? d id
  if buffer.isNone && s.disk.exists? artifact then (.ok artifact, s)
  else
    match writeArtifact s.disk artifact preamble buffer with
    | (.error failure, disk) => (.error failure, { s with disk })
    | (.ok (), disk) =>
      let s := { s with disk, repository := s.repository.release d id }
      match buffer with
      | some (.onDisk spill) =>
        match s.disk.removeFile spill.path with
        | (.ok (), disk) => (.ok artifact, { s with disk })
        | (.error fault, disk) => (.error (.disk spill.path fault), { s with disk })
      | _ => (.ok artifact, s)

/-- Moves both buffers of an exchange into artifacts, the request first; a failure ends
it. -/
def archiveInto (s : Store) (id : ExchangeId) (target : Path) (preamble : Direction → Bytes) :
    Except CaptureFailure (List Path) × Store :=
  match s.archiveDirection id target (preamble .request) .request with
  | (.error failure, s) => (.error failure, s)
  | (.ok first, s) =>
    match s.archiveDirection id target (preamble .response) .response with
    | (.error failure, s) => (.error failure, s)
    | (.ok second, s) => (.ok [first, second], s)

end Store

end Wiretap
