/-
  Wiretap.Archive
  ───────────────
  **THE ARCHIVE OF FINISHED EXCHANGES.**

  Each exchange has a directory below the base: its date, the first four characters of its
  identifier one below the other, and the identifier.  It holds two artifacts, a start
  line and headers for each half, followed by the captured body as it is.
-/
import Wiretap.Capture.Repository
import Wiretap.Log.Record

namespace Wiretap.Archive

/-- How many characters of an identifier are directories of their own. -/
def shardDepth : Nat := ExchangeId.shardLength

/-- The directory of an exchange. -/
def shardDirectory (base : Path) (date : Time.Date) (id : ExchangeId) :
    Except CaptureFailure Path :=
  if !id.isPathSafe || id.text.length < shardDepth then .error (.unusableId id)
  else
    let shards := (id.text.toList.take shardDepth).map fun c => String.ofList [c]
    .ok ((date.text :: shards ++ [id.text]).foldl Path.join base)

/-- The end of a line. -/
def lineEnd : String := "\r\n"

/-- The start line of one half. -/
def startLine (r : Record) : Direction → String
  | .request => r.method ++ " " ++ r.uri
  | .response => (r.status.map toString).getD "-"

/-- A header on a line of its own. -/
def headerLine (h : String × String) : String := h.1 ++ ": " ++ h.2 ++ lineEnd

/-- What stands in front of the body: the start line, the headers and an empty line. -/
def preamble (r : Record) (d : Direction) : String :=
  startLine r d ++ lineEnd ++ String.join ((r.headers d).map headerLine) ++ lineEnd

/-- Moves the buffers of a record to its directory. -/
def archive (s : Store) (base : Path) (r : Record) : Except CaptureFailure Path × Store :=
  match shardDirectory base r.started.date r.id with
  | .error failure => (.error failure, s)
  | .ok directory =>
    match s.disk.makeDirectories directory with
    | (.error fault, disk) => (.error (.disk directory fault), { s with disk })
    | (.ok (), disk) =>
      let preambles (d : Direction) : Bytes := Utf8.encode (preamble r d)
      match Store.archiveInto { s with disk } r.id directory preambles with
      | (.error failure, s) => (.error failure, s)
      | (.ok _, s) =>
        let metrics := s.metrics
        (.ok directory, { s with metrics := { metrics with archived := metrics.archived + 1 } })

end Wiretap.Archive
