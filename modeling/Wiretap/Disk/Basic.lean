/-
  Wiretap.Disk.Basic
  ──────────────────
  **FILES AND DIRECTORIES.**

  A disk is a tree, held as a map from places (the names on the way from the root) to
  directories and files.  A file has a stamp, given when it was made: a handle writes to
  the file it was opened on, and once that file is gone, or another has taken its place,
  what the handle writes is seen nowhere.

  The disk may also misbehave: `responses` holds what it will answer to the next requests.
-/
import Std.Data.ExtTreeMap
import Wiretap.Disk.Landing
import Wiretap.Disk.Path

namespace Wiretap

/-! ## §1. Places. -/

/-- The names from the root to an entry. -/
abbrev Place := List String

/-- What stands at a place. -/
inductive Entry
  | directory
  | file (stamp : Nat) (content : Bytes)
  deriving DecidableEq, Repr

/-- The most bytes of one name. -/
def maxNameLength : Nat := 255

/-- The most bytes of the text of a path in a request. -/
def maxPathLength : Nat := 4095

/-- A disk. -/
structure Disk where
  entries : Std.ExtTreeMap Place Entry compare
  /-- The stamp of the next file made. -/
  fresh : Nat
  /-- Where paths without a leading slash start. -/
  workingDirectory : Place
  /-- What the disk answers to the next requests; it grants all later ones. -/
  responses : List Response

/-- A file opened for writing. -/
structure Handle where
  place : Place
  stamp : Nat
  deriving DecidableEq, Repr

namespace Disk

/-- A disk on which these directories stand and nothing else. -/
def ofDirectories (directories : List Place) (workingDirectory : Place) : Disk :=
  let above := directories.flatMap fun place =>
    (List.range place.length).map fun n => place.take (n + 1)
  ⟨Std.ExtTreeMap.ofList (above.map fun place => (place, .directory)) compare, 0,
    workingDirectory, []⟩

/-- What stands at a place; the root is always a directory. -/
def entry? (d : Disk) (place : Place) : Option Entry :=
  if place = [] then some .directory else d.entries[place]?

/-- The disk with an entry at a place. -/
def put (d : Disk) (place : Place) (entry : Entry) : Disk :=
  { d with entries := d.entries.insert place entry }

/-- The disk without the entry at a place. -/
def erase (d : Disk) (place : Place) : Disk := { d with entries := d.entries.erase place }

/-- The place that steps lead to; all places on the way must be directories, and the last
one need not exist. -/
def walk (d : Disk) : (start : Place) → (steps : List String) → Except Fault Place
  | here, [] => .ok here
  | here, step :: rest =>
    match d.entry? here with
    | none => .error (.system .missing)
    | some (.file ..) => .error (.system .notADirectory)
    | some .directory =>
      if step = "." then walk d here rest
      else if step = ".." then walk d here.dropLast rest
      else if maxNameLength < step.utf8ByteSize then .error (.system .nameTooLong)
      else walk d (here ++ [step]) rest

/-- Why no request can name a path, if it is so. -/
def textFault? (path : Path) : Option Fault :=
  if path.text.toList.contains (Char.ofNat 0) then some .zeroInPath
  else if maxPathLength < path.text.utf8ByteSize then some (.system .nameTooLong)
  else none

/-- Where the steps of a path start. -/
def origin (d : Disk) (path : Path) : Place := if path.isAbsolute then [] else d.workingDirectory

/-- The place of a path whose last name need not exist. -/
def locate (d : Disk) (path : Path) : Except Fault Place :=
  match textFault? path with
  | some fault => .error fault
  | none =>
    if path.text == "" then .error (.system .missing) else d.walk (d.origin path) path.steps

/-- The place and entry of a path. -/
def find (d : Disk) (path : Path) : Except Fault (Place × Entry) := do
  let place ← d.locate path
  match d.entry? place with
  | none => .error (.system .missing)
  | some .directory => .ok (place, .directory)
  | some (.file stamp content) =>
    if path.endsInSlash then .error (.system .notADirectory)
    else .ok (place, .file stamp content)

/-- Whether something stands at a path. -/
def exists? (d : Disk) (path : Path) : Bool := (d.find path).isOk

/-- Whether a directory stands at a path. -/
def isDirectory (d : Disk) (path : Path) : Bool :=
  match d.find path with
  | .ok (_, .directory) => true
  | _ => false

/-! ## §2. Reading. -/

/-- At most the first `limit` bytes of the file at a path.  A directory can be opened, but
not a byte of it read. -/
def readUpTo (d : Disk) (path : Path) (limit : Nat) : Except Fault Bytes := do
  match ← d.find path with
  | (_, .file _ content) => .ok (content.take limit)
  | (_, .directory) => if limit = 0 then .ok [] else .error (.system .isADirectory)

/-- The content of the file at a path. -/
def read (d : Disk) (path : Path) : Except Fault Bytes := do
  match ← d.find path with
  | (_, .file _ content) => .ok content
  | (_, .directory) => .error (.system .isADirectory)

/-- The content of an open file, unless it is gone. -/
def contentOf (d : Disk) (handle : Handle) : Option Bytes :=
  match d.entry? handle.place with
  | some (.file stamp content) => if stamp = handle.stamp then some content else none
  | _ => none

/-! ## §3. Requests. -/

/-- The answer to the next request that is no write: a fault, or none. -/
def ask (d : Disk) : Option Fault × Disk :=
  match d.responses with
  | [] => (none, d)
  | .refuse fault :: rest => (some fault, { d with responses := rest })
  | _ :: rest => (none, { d with responses := rest })

/-- The place where a file is opened or made.  A closing slash asks for a directory, whatever
the last name is. -/
def locateFile (d : Disk) (path : Path) : Except Fault Place :=
  if path.endsInSlash then do
    match textFault? path with
    | some fault => .error fault
    | none =>
      let _ ← d.walk (d.origin path) (path.steps.dropLast ++ ["."])
      .error (.system .isADirectory)
  else d.locate path

/-- Opens the file at a path for writing, made when it is missing and emptied when
`truncate` is set. -/
def openFile (d : Disk) (path : Path) (truncate : Bool) : Except Fault Handle × Disk :=
  match d.ask with
  | (some fault, d) => (.error fault, d)
  | (none, d) =>
    match d.locateFile path with
    | .error fault => (.error fault, d)
    | .ok place =>
      match d.entry? place with
      | some .directory => (.error (.system .isADirectory), d)
      | some (.file stamp content) =>
        (.ok ⟨place, stamp⟩, d.put place (.file stamp (if truncate then [] else content)))
      | none =>
        (.ok ⟨place, d.fresh⟩,
          { d.put place (.file d.fresh []) with fresh := d.fresh + 1 })

/-- The content after some attempts landed. -/
def contentAfter (content : Bytes) (attempts : List Attempt) : Bytes :=
  attempts.foldl (fun c a => c.overwrite a.offset a.landed) content

/-- The disk after some attempts on an open file. -/
def apply (d : Disk) (handle : Handle) (attempts : List Attempt) : Disk :=
  match d.contentOf handle with
  | some content => d.put handle.place (.file handle.stamp (contentAfter content attempts))
  | none => d

/-- Writes data to an open file at an offset. -/
def write (d : Disk) (limit : Nat) (handle : Handle) (offset : Nat) (data : Bytes) :
    Landing × Disk :=
  let landing := land limit d.responses 0 offset data
  (landing, { d.apply handle landing.attempts with responses := landing.rest })

/-- Writes all data to an open file at an offset; a write without progress is a fault. -/
def writeAll (d : Disk) (handle : Handle) (offset : Nat) (data : Bytes) :
    Except Fault Unit × Disk :=
  let (landing, d) := d.write 1 handle offset data
  match landing.outcome with
  | .complete => (.ok (), d)
  | .stalled _ => (.error .writeZero, d)
  | .refused fault => (.error fault, d)

/-- Makes or replaces the file at a path. -/
def writeFile (d : Disk) (path : Path) (data : Bytes) : Except Fault Unit × Disk :=
  match d.openFile path true with
  | (.error fault, d) => (.error fault, d)
  | (.ok handle, d) => d.writeAll handle 0 data

/-- Removes the file at a path. -/
def removeFile (d : Disk) (path : Path) : Except Fault Unit × Disk :=
  match d.ask with
  | (some fault, d) => (.error fault, d)
  | (none, d) =>
    match d.find path with
    | .error fault => (.error fault, d)
    | .ok (_, .directory) => (.error (.system .isADirectory), d)
    | .ok (place, .file ..) => (.ok (), d.erase place)

/-- The disk without what is below a place, and without the place itself where `whole` is
set. -/
def clear (d : Disk) (place : Place) (whole : Bool) : Disk :=
  { d with entries := d.entries.filter fun other _ =>
      !place.isPrefixOf other || (!whole && other == place) }

/-- Removes what stands at a path, with everything below it.  Where points close the path its
directory is emptied and stays: by its point it cannot be removed, unless the path itself led
through what is gone. -/
def removeTree (d : Disk) (path : Path) : Except Fault Unit × Disk :=
  match d.find path with
  | .error fault => (.error fault, d)
  | .ok (place, _) =>
    if path.endsInPoints then
      let emptied := d.clear place false
      match emptied.locate path with
      | .ok _ => (.error (.system .invalidArgument), emptied)
      | .error _ => (.ok (), emptied)
    else (.ok (), d.clear place true)

/-! ## §4. Directories. -/

/-- Follows steps and makes the directories that are missing on the way; `made` tells whether
one was made already.  A file on the way is no directory; behind a directory just made it
counts as taking the name of one. -/
def makeWay (d : Disk) (made : Bool) : (start : Place) → (steps : List String) →
    Except Fault Place × Disk
  | here, [] =>
    if made && d.entry? here != some .directory then (.error (.system .taken), d)
    else (.ok here, d)
  | here, step :: rest =>
    match d.entry? here with
    | none => (.error (.system .missing), d)
    | some (.file ..) => (.error (.system (if made then .taken else .notADirectory)), d)
    | some .directory =>
      if step = "." then makeWay d made here rest
      else if step = ".." then makeWay d made here.dropLast rest
      else if maxNameLength < step.utf8ByteSize then (.error (.system .nameTooLong), d)
      else if (d.entry? (here ++ [step])).isNone then
        makeWay (d.put (here ++ [step]) .directory) true (here ++ [step]) rest
      else makeWay d made (here ++ [step]) rest

/-- Makes the directory at the end of steps, with those above it. -/
def makeSteps (d : Disk) (start : Place) (steps : List String) : Except Fault Unit × Disk :=
  match d.makeWay false start steps with
  | (.error fault, d) => (.error fault, d)
  | (.ok place, d) =>
    if d.entry? place == some .directory then (.ok (), d) else (.error (.system .taken), d)

/-- Makes the directories above the last of some steps; the last one must be there. -/
def makeAbove (d : Disk) (start : Place) (steps : List String) : Except Fault Unit × Disk :=
  match d.makeWay false start steps.dropLast with
  | (.error fault, d) => (.error fault, d)
  | (.ok place, d) => ((d.walk place (steps.getLast?.toList ++ ["."])).map fun _ => (), d)

/-- Makes the directory at a path, with those above it.  A point that closes the path makes
nothing: the directory before it must be there, those above that one are made. -/
def makeDirectories (d : Disk) (path : Path) : Except Fault Unit × Disk :=
  match d.ask with
  | (some fault, d) => (.error fault, d)
  | (none, d) =>
    match textFault? path with
    | some fault => (.error fault, d)
    | none =>
      if path.endsInPoint then d.makeAbove (d.origin path) (Path.trimIdle path.steps)
      else d.makeSteps (d.origin path) path.steps

/-! ## §5. Listing. -/

/-- The entries below a place, each with its place below it, in order. -/
def below (d : Disk) (place : Place) : List (Place × Entry) :=
  d.entries.toList.filterMap fun e =>
    if place.isPrefixOf e.1 && place != e.1 then some (e.1.drop place.length, e.2) else none

/-- Of entries in the order of their places, those with nothing below them: the files and the
empty directories. -/
def leaves : List (Place × Entry) → List (Place × Entry)
  | [] => []
  | [last] => [last]
  | e :: next :: rest =>
    if e.1.isPrefixOf next.1 then leaves (next :: rest) else e :: leaves (next :: rest)

end Disk

end Wiretap
