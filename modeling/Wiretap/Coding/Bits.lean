/-
  Wiretap.Coding.Bits
  ───────────────────
  **READING BITS.**

  A byte string read bit by bit, the lowest bit of each byte first.  The bits of the byte
  that is being read are kept apart, so that a reader can drop them and go on with whole
  bytes.
-/
import Wiretap.Bytes

namespace Wiretap.Coding

/-- Why a compressed stream cannot be read. -/
inductive DeflateFault
  /-- The stream ends too early. -/
  | incomplete
  /-- The stream breaks the format. -/
  | corrupt
  deriving DecidableEq, Repr

/-- What is left to read. -/
structure BitInput where
  /-- The unread bits of the byte begun. -/
  pending : List Bool
  /-- The bytes behind it. -/
  rest : Bytes
  deriving DecidableEq, Repr

/-- The bits of a byte, the lowest first. -/
def bitsOf (b : UInt8) : List Bool :=
  [b.toNat.testBit 0, b.toNat.testBit 1, b.toNat.testBit 2, b.toNat.testBit 3,
    b.toNat.testBit 4, b.toNat.testBit 5, b.toNat.testBit 6, b.toNat.testBit 7]

namespace BitInput

/-- The whole of a byte string. -/
def ofBytes (bytes : Bytes) : BitInput := ⟨[], bytes⟩

/-- The next bit. -/
def bit (i : BitInput) : Except DeflateFault (Bool × BitInput) :=
  match i.pending with
  | b :: pending => .ok (b, ⟨pending, i.rest⟩)
  | [] =>
    match i.rest with
    | [] => .error .incomplete
    | byte :: rest =>
      .ok (byte.toNat.testBit 0, ⟨(bitsOf byte).tail, rest⟩)

/-- The number that the next `count` bits write, the lowest bit first. -/
def number : (count : Nat) → BitInput → Except DeflateFault (Nat × BitInput)
  | 0, i => .ok (0, i)
  | n + 1, i => do
    let (low, i) ← i.bit
    let (high, i) ← number n i
    return (2 * high + low.toNat, i)

/-- The input from the next whole byte on. -/
def aligned (i : BitInput) : Bytes := i.rest

end BitInput

end Wiretap.Coding
