/-
  Wiretap.Coding.Decoder
  ──────────────────────
  **READING THROUGH A DECODER.**

  A decoder takes the coded bytes in pieces and gives bytes out window by window.  It pauses
  where a window is full and where a piece ends, and a reader gets what is out by then:

    • who reads everything meets the fault, if there is one,
    • who stops early gets what came out up to the last pause before a corrupt place; any
      other fault shows only behind the last byte.
-/
import Wiretap.Coding.Decoded

namespace Wiretap.Coding

/-! ## §1. Decoders. -/

/-- A way to decode, and the sizes of the pieces in which the coded bytes come: the first
one and each later one. -/
structure Decoder where
  decode : Bytes → Decoded
  firstPiece : Nat
  laterPiece : Nat

namespace Decoder

/-- The bytes as they are. -/
def identity : Decoder := ⟨fun coded => ⟨coded, none⟩, 32768, 32768⟩

/-- Gzip, in equal pieces. -/
def gzip : Decoder := ⟨decodeGzip, 32768, 32768⟩

/-- Deflate; its first piece is the one in which the wrapping was looked for. -/
def deflate : Decoder := ⟨decodeDeflate, 8192, 32768⟩

/-! ## §2. Pauses. -/

/-- How many bytes come out before a window is full. -/
def windowSize : Nat := 32768

/-- Where the pieces of `size` coded bytes end, the last piece left out. -/
def pieceEnds (d : Decoder) (size : Nat) : List Nat :=
  ((List.range (size / d.laterPiece + 1)).map fun k => d.firstPiece + k * d.laterPiece).filter
    (· < size)

/-- How many bytes were out when the last window filled up that another byte came after. -/
def seenByWindow (whole : Decoded) : Nat := (whole.bytes.length - 1) / windowSize * windowSize

/-- How many bytes were out at the end of the last piece before a corrupt one.  The later ends
are tried first: what is corrupt up to one end is corrupt up to every later one. -/
def seenByPiece (d : Decoder) (coded : Bytes) : Nat :=
  let sizes := (d.pieceEnds coded.length).reverse.findSome? fun cut =>
    let piece := d.decode (coded.take cut)
    if piece.isCorrupt then none else some piece.bytes.length
  sizes.getD 0

/-- How many bytes can be read before the fault shows.  Only corruption hides bytes. -/
def seen (d : Decoder) (coded : Bytes) (whole : Decoded) : Nat :=
  if whole.isCorrupt then max (seenByWindow whole) (d.seenByPiece coded)
  else whole.bytes.length

/-! ## §3. Reading. -/

/-- All bytes; a fault anywhere spoils them. -/
def all (d : Decoder) (coded : Bytes) : Except DecodeFault Bytes :=
  let whole := d.decode coded
  match whole.fault with
  | none => .ok whole.bytes
  | some fault => .error fault

/-- The first `wanted` bytes, or all where there are fewer. -/
def first (d : Decoder) (coded : Bytes) (wanted : Nat) : Except DecodeFault Bytes :=
  let whole := d.decode coded
  match whole.fault with
  | none => .ok (whole.bytes.take wanted)
  | some fault =>
    if wanted ≤ d.seen coded whole then .ok (whole.bytes.take wanted) else .error fault

end Decoder

end Wiretap.Coding
