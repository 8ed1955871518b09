/-
  Wiretap.Log.AccessLine
  ──────────────────────
  **ONE RECORD AS ONE LINE.**

  A record as a JSON object on a line of its own.  Bodies are given by size, and by the
  first bytes of their decoded content where that is asked for; a body that cannot be read
  leaves no line at all.
-/
import Wiretap.Json.Printer
import Wiretap.Log.Record

namespace Wiretap

/-- What a line tells of bodies. -/
structure BodyDetail where
  /-- Whether the text of a body is part of the line. -/
  included : Bool
  /-- The most decoded bytes of a body. -/
  most : UInt64
  deriving DecidableEq, Repr

namespace AccessLine

/-- One body. -/
def body (detail : BodyDetail) (disk : Disk) : Option Body → Except ReadStop Json
  | none => .ok .null
  | some b =>
    if detail.included then do
      let (bytes, truncated) ← b.firstBytes disk detail.most
      return .object [("size", .natural b.size), ("text", .text (Utf8.decodeLossy bytes)),
        ("truncated", .bool truncated)]
    else .ok (.object [("size", .natural b.size), ("truncated", .bool false)])

/-- Headers as pairs of name and value. -/
def headers (h : RecordedHeaders) : Json :=
  .array (h.map fun (name, value) => .array [.text name, .text value])

/-- Who was authenticated. -/
def user : Option User → Json
  | none => .null
  | some u => .object [("realm", .text u.realm), ("username", .text u.username)]

/-- A status code. -/
def status : Option Nat → Json
  | none => .null
  | some code => .natural code

/-- The members of a line. -/
def members (r : Record) (requestBody responseBody : Json) : List (String × Json) :=
  [("id", .text r.id.text),
    ("timestamp", .text r.started.text),
    ("method", .text r.method),
    ("uri", .text r.uri),
    ("path", .text r.path),
    ("route", .text r.route),
    ("status", status r.status),
    ("duration_ms", .double r.duration.millis),
    ("remote_addr", Json.ofOption (r.remote.map (·.text))),
    ("user", user r.user),
    ("exception", Json.ofOption r.exception),
    ("request_headers", headers r.requestHeaders),
    ("response_headers", headers r.responseHeaders),
    ("request_body", requestBody),
    ("response_body", responseBody)]

/-- The record as a value; both bodies are read before anything else is done. -/
def value (detail : BodyDetail) (disk : Disk) (r : Record) : Except ReadStop Json := do
  let requestBody ← body detail disk r.requestBody
  let responseBody ← body detail disk r.responseBody
  return .object (members r requestBody responseBody)

/-- The line of a record, with its line end. -/
def line (detail : BodyDetail) (disk : Disk) (r : Record) : Except ReadStop Bytes := do
  let v ← value detail disk r
  return Utf8.encode (v.render ++ "\n")

end AccessLine

end Wiretap
