/-
  Wiretap.Coding.Decoded
  ──────────────────────
  **UNDOING A CONTENT CODING.**

  What comes out of a coded byte string: its bytes, and the fault that ends them, if one does.
-/
import Wiretap.Coding.Checksum
import Wiretap.Coding.Deflate

namespace Wiretap.Coding

/-! ## §1. Faults. -/

/-- Why a body cannot be decoded. -/
inductive DecodeFault
  | deflate (fault : DeflateFault)
  /-- The header or the trailer of a gzip member ends too early. -/
  | gzipIncomplete
  | gzipHeader
  /-- A name or comment in a gzip header is too long. -/
  | gzipFieldTooLong
  /-- A checksum of a gzip member does not match. -/
  | gzipChecksum
  deriving DecidableEq, Repr

/-- The wording of a fault. -/
def DecodeFault.message : DecodeFault → String
  | .deflate .incomplete => "incomplete deflate stream"
  | .deflate .corrupt => "corrupt deflate stream"
  | .gzipIncomplete => "unexpected end of file"
  | .gzipHeader => "invalid gzip header"
  | .gzipFieldTooLong => "gzip header field too long"
  | .gzipChecksum => "corrupt gzip stream does not have a matching checksum"

/-! ## §2. Decoded bytes. -/

/-- What comes out of a decoder. -/
structure Decoded where
  bytes : Bytes
  fault : Option DecodeFault
  deriving DecidableEq, Repr

/-- Nothing but a fault. -/
def Decoded.failed (fault : DecodeFault) : Decoded := ⟨[], some fault⟩

/-- Whether the bytes end in a corrupt stream. -/
def Decoded.isCorrupt (d : Decoded) : Bool := d.fault == some (.deflate .corrupt)

/-! ## §3. Deflate with and without a wrapping. -/

/-- The bytes of a plain deflate stream. -/
def decodeRaw (coded : Bytes) : Decoded :=
  let stream := inflate coded
  match stream.finish with
  | .ok _ => ⟨stream.output.toList, none⟩
  | .error fault => ⟨stream.output.toList, some (.deflate fault)⟩

/-- Whether two bytes can start a zlib stream: the method is deflate and the check bits fit. -/
def looksLikeZlib : Bytes → Bool
  | a :: b :: _ => a.toNat % 16 == 8 && (a.toNat * 256 + b.toNat) % 31 == 0
  | _ => false

/-- Whether a decoder takes the header: the window is not too large and no dictionary is
preset. -/
def acceptsZlibHeader (a b : UInt8) : Bool := a.toNat / 16 ≤ 7 && b.toNat / 32 % 2 == 0

/-- The bytes of a zlib stream, from behind its header on. -/
def decodeZlibBody (coded : Bytes) : Decoded :=
  let stream := inflate coded
  let bytes := stream.output.toList
  match stream.finish with
  | .error fault => ⟨bytes, some (.deflate fault)⟩
  | .ok rest =>
    match rest.aligned with
    | a :: b :: c :: d :: _ =>
      if Bytes.littleEndian [d, c, b, a] = adler32 bytes then ⟨bytes, none⟩
      else ⟨bytes, some (.deflate .corrupt)⟩
    | _ => ⟨bytes, some (.deflate .incomplete)⟩

/-- The bytes of a zlib stream. -/
def decodeZlib : Bytes → Decoded
  | a :: b :: rest =>
    if acceptsZlibHeader a b then decodeZlibBody rest else .failed (.deflate .corrupt)
  | _ => .failed (.deflate .incomplete)

/-- The bytes of a deflate stream with or without the zlib wrapping. -/
def decodeDeflate (coded : Bytes) : Decoded :=
  if looksLikeZlib coded then decodeZlib coded else decodeRaw coded

/-! ## §4. Gzip. -/

/-- The most bytes of a name or comment in a gzip header. -/
def maxFieldLength : Nat := 65535

/-- What is left behind a text that ends in a zero byte. -/
def skipField (bytes : Bytes) : Except DecodeFault Bytes :=
  let field := bytes.takeWhile (· != 0)
  if maxFieldLength < field.length then .error .gzipFieldTooLong
  else
    match bytes.drop field.length with
    | _ :: rest => .ok rest
    | [] => .error .gzipIncomplete

/-- What is left behind a field that starts with its length in two bytes. -/
def skipExtra : Bytes → Except DecodeFault Bytes
  | a :: b :: rest =>
    let count := Bytes.littleEndian [a, b]
    if rest.length < count then .error .gzipIncomplete else .ok (rest.drop count)
  | _ => .error .gzipIncomplete

/-- What is left behind the check of the header, which is over `header`. -/
def skipHeaderCheck (header : Bytes) : Bytes → Except DecodeFault Bytes
  | a :: b :: rest =>
    if Bytes.littleEndian [a, b] = (crc32 header).toNat % 65536 then .ok rest
    else .error .gzipChecksum
  | _ => .error .gzipIncomplete

/-- The compressed data of a gzip member, from behind its header on. -/
def skipGzipHeader (coded : Bytes) : Except DecodeFault Bytes :=
  match coded with
  | a :: b :: method :: flags :: _ :: _ :: _ :: _ :: _ :: _ :: rest =>
    let flag (k : Nat) : Bool := flags.toNat.testBit k
    if a ≠ 0x1F || b ≠ 0x8B || method ≠ 8 || 32 ≤ flags.toNat then .error .gzipHeader
    else do
      let rest ← if flag 2 then skipExtra rest else .ok rest
      let rest ← if flag 3 then skipField rest else .ok rest
      let rest ← if flag 4 then skipField rest else .ok rest
      if flag 1 then skipHeaderCheck (coded.take (coded.length - rest.length)) rest
      else .ok rest
  | _ => .error .gzipIncomplete

/-- The bytes of the first gzip member. -/
def decodeGzip (coded : Bytes) : Decoded :=
  match skipGzipHeader coded with
  | .error fault => .failed fault
  | .ok data =>
    let stream := inflate data
    let bytes := stream.output.toList
    match stream.finish with
    | .error fault => ⟨bytes, some (.deflate fault)⟩
    | .ok rest =>
      match rest.aligned with
      | a :: b :: c :: d :: e :: f :: g :: h :: _ =>
        if Bytes.littleEndian [a, b, c, d] = (crc32 bytes).toNat
            && Bytes.littleEndian [e, f, g, h] = bytes.length % UInt32.size then ⟨bytes, none⟩
        else ⟨bytes, some .gzipChecksum⟩
      | _ => ⟨bytes, some .gzipIncomplete⟩

end Wiretap.Coding
