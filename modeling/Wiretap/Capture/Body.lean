/-
  Wiretap.Capture.Body
  ────────────────────
  **READING A CAPTURED BODY.**

  A body says where captured bytes are and how they are coded.  Nothing is read until a
  reader asks: raw, decoded, or only the first bytes of the decoded content.
-/
import Wiretap.Coding.Decoder
import Wiretap.Disk.Basic
import Wiretap.Text.Ascii
import Wiretap.Text.Blank

namespace Wiretap

/-! ## §1. Content codings. -/

/-- The codings that can be undone. -/
inductive ContentCoding
  | identity
  | gzip
  | deflate
  deriving DecidableEq, Repr

namespace ContentCoding

/-- The coding that a header value names; a list of codings, or an unknown one, is left as
it is. -/
def ofHeader (value : Option String) : ContentCoding :=
  match value with
  | none => .identity
  | some v =>
    match Text.asciiLower (Text.trim v) with
    | "gzip" | "x-gzip" => .gzip
    | "deflate" => .deflate
    | _ => .identity

/-- How the coding is undone. -/
def decoder : ContentCoding → Coding.Decoder
  | .identity => .identity
  | .gzip => .gzip
  | .deflate => .deflate

end ContentCoding

/-! ## §2. Bodies. -/

/-- Where captured bytes are. -/
inductive BodySource
  | memory (bytes : Bytes)
  /-- The first bytes of a file. -/
  | file (path : Path) (length : Nat)
  deriving DecidableEq, Repr

/-- Why a body cannot be read. -/
inductive BodyFault
  | disk (fault : Fault)
  | coding (fault : Coding.DecodeFault)
  deriving DecidableEq, Repr

/-- The wording of a fault. -/
def BodyFault.message : BodyFault → String
  | .disk fault => fault.message
  | .coding fault => fault.message

/-- Why the first bytes of a body are not given. -/
inductive ReadStop
  | failed (fault : BodyFault)
  /-- One byte more than the limit is no 64-bit number, and whoever adds it panics. -/
  | overflow
  deriving DecidableEq, Repr

/-- The wording of what stops a reader. -/
def ReadStop.message : ReadStop → String
  | .failed fault => fault.message
  | .overflow => "attempt to add with overflow"

/-- A captured body. -/
structure Body where
  source : BodySource
  coding : ContentCoding
  deriving DecidableEq, Repr

namespace Body

/-- How many bytes were captured, before any decoding. -/
def size (b : Body) : Nat :=
  match b.source with
  | .memory bytes => bytes.length
  | .file _ length => length

/-- The file that holds the body, if one does. -/
def path? (b : Body) : Option Path :=
  match b.source with
  | .memory _ => none
  | .file path _ => some path

/-- The bytes as they were captured. -/
def raw (b : Body) (disk : Disk) : Except Fault Bytes :=
  match b.source with
  | .memory bytes => .ok bytes
  | .file path length => disk.readUpTo path length

/-- The fault that keeps the body from being opened, if there is one. -/
def openFault (b : Body) (disk : Disk) : Option Fault :=
  match b.source with
  | .memory _ => none
  | .file path _ =>
    match disk.find path with
    | .ok _ => none
    | .error fault => some fault

/-- The whole decoded content. -/
def content (b : Body) (disk : Disk) : Except BodyFault Bytes :=
  match b.raw disk with
  | .error fault => .error (.disk fault)
  | .ok bytes => (b.coding.decoder.all bytes).mapError .coding

/-- Opens the body without reading from it; the start of a deflate stream is looked at to
learn how it is wrapped. -/
def probe (b : Body) (disk : Disk) : Except BodyFault Unit :=
  match b.openFault disk, b.coding, b.raw disk with
  | some fault, _, _ => .error (.disk fault)
  | none, .deflate, .error fault => .error (.disk fault)
  | none, _, _ => .ok ()

/-- The first bytes of the decoded content, and whether there were more.

The body is opened, and one byte more than `limit` is asked for: the sum is checked, and at
the largest limit nothing comes back. -/
def firstBytes (b : Body) (disk : Disk) (limit : UInt64) : Except ReadStop (Bytes × Bool) :=
  if limit.toNat + 1 < UInt64.size then
    match b.raw disk with
    | .error fault => .error (.failed (.disk fault))
    | .ok bytes =>
      match b.coding.decoder.first bytes (limit.toNat + 1) with
      | .error fault => .error (.failed (.coding fault))
      | .ok found => .ok (found.take limit.toNat, limit.toNat < found.length)
  else
    match b.probe disk with
    | .error fault => .error (.failed fault)
    | .ok () => .error .overflow

end Body

end Wiretap
