/-
  Wiretap.Coding.Checksum
  ───────────────────────
  **CHECKSUMS OF COMPRESSED STREAMS.**

  The cyclic redundancy check of gzip members and the Adler sum of zlib streams, each
  byte by byte.
-/
import Wiretap.Bytes

namespace Wiretap.Coding

/-! ## §1. Cyclic redundancy check. -/

/-- The generator of the check, lowest power in the highest bit. -/
def crcGenerator : UInt32 := 0xEDB88320

/-- The remainder after one bit. -/
def crcBit (r : UInt32) : UInt32 := if r &&& 1 = 1 then (r >>> 1) ^^^ crcGenerator else r >>> 1

/-- The remainder after one byte. -/
def crcByte (r : UInt32) (b : UInt8) : UInt32 :=
  (List.range 8).foldl (fun r _ => crcBit r) (r ^^^ b.toUInt32)

/-- The check of a byte string. -/
def crc32 (bytes : Bytes) : UInt32 := bytes.foldl crcByte 0xFFFFFFFF ^^^ 0xFFFFFFFF

/-! ## §2. Adler sum. -/

/-- The modulus of the sum. -/
def adlerModulus : Nat := 65521

/-- The plain sum and the sum of sums after one byte. -/
def adlerByte (s : Nat × Nat) (b : UInt8) : Nat × Nat :=
  let plain := (s.1 + b.toNat) % adlerModulus
  (plain, (s.2 + plain) % adlerModulus)

/-- The sum of a byte string. -/
def adler32 (bytes : Bytes) : Nat :=
  let s := bytes.foldl adlerByte (1, 0)
  s.2 * 65536 + s.1

end Wiretap.Coding
