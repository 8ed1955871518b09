/-
  Wiretap.Coding.Deflate
  ──────────────────────
  **DEFLATE.**

  A stream of blocks: stored bytes, or symbols of two prefix codes that stand for bytes
  and for copies of what came out before.  What came out before a fault is kept, since a
  reader that stops early never meets the fault.
-/
import Wiretap.Coding.Huffman

namespace Wiretap.Coding

/-- What came out of a stream, and the input behind its end or the fault that ended it. -/
structure Inflated where
  output : Array UInt8
  finish : Except DeflateFault BitInput

/-! ## §1. Copies. -/

/-- A base value and how many bits are added to it. -/
structure Stretch where
  base : Nat
  extra : Nat

/-- The lengths of copies, from symbol 257 on. -/
def lengthStretches : Array Stretch :=
  #[⟨3, 0⟩, ⟨4, 0⟩, ⟨5, 0⟩, ⟨6, 0⟩, ⟨7, 0⟩, ⟨8, 0⟩, ⟨9, 0⟩, ⟨10, 0⟩, ⟨11, 1⟩, ⟨13, 1⟩, ⟨15, 1⟩,
    ⟨17, 1⟩, ⟨19, 2⟩, ⟨23, 2⟩, ⟨27, 2⟩, ⟨31, 2⟩, ⟨35, 3⟩, ⟨43, 3⟩, ⟨51, 3⟩, ⟨59, 3⟩, ⟨67, 4⟩,
    ⟨83, 4⟩, ⟨99, 4⟩, ⟨115, 4⟩, ⟨131, 5⟩, ⟨163, 5⟩, ⟨195, 5⟩, ⟨227, 5⟩, ⟨258, 0⟩]

/-- How far back copies start. -/
def distanceStretches : Array Stretch :=
  #[⟨1, 0⟩, ⟨2, 0⟩, ⟨3, 0⟩, ⟨4, 0⟩, ⟨5, 1⟩, ⟨7, 1⟩, ⟨9, 2⟩, ⟨13, 2⟩, ⟨17, 3⟩, ⟨25, 3⟩, ⟨33, 4⟩,
    ⟨49, 4⟩, ⟨65, 5⟩, ⟨97, 5⟩, ⟨129, 6⟩, ⟨193, 6⟩, ⟨257, 7⟩, ⟨385, 7⟩, ⟨513, 8⟩, ⟨769, 8⟩,
    ⟨1025, 9⟩, ⟨1537, 9⟩, ⟨2049, 10⟩, ⟨3073, 10⟩, ⟨4097, 11⟩, ⟨6145, 11⟩, ⟨8193, 12⟩,
    ⟨12289, 12⟩, ⟨16385, 13⟩, ⟨24577, 13⟩]

/-- The value of a symbol of a table, with its extra bits. -/
def readStretch (stretches : Array Stretch) (symbol : Nat) (i : BitInput) : Except DeflateFault (Nat × BitInput) :=
  match stretches[symbol]? with
  | none => .error .corrupt
  | some stretch => do
    let (more, i) ← i.number stretch.extra
    return (stretch.base + more, i)

/-- The output after `count` bytes from `distance` back were copied one by one; before the
start of the output there are zeros. -/
def copyBack (distance : Nat) : (count : Nat) → Array UInt8 → Array UInt8
  | 0, out => out
  | n + 1, out =>
    let byte := if distance ≤ out.size then out[out.size - distance]?.getD 0 else 0
    copyBack distance n (out.push byte)

/-! ## §2. Blocks. -/

/-- The symbol that ends a block. -/
def endOfBlock : Nat := 256

/-- The symbols of one block; `budget` is more than the bits that are left. -/
def readSymbols (literals distances : CodeTree) :
    (budget : Nat) → BitInput → Array UInt8 → Inflated
  | 0, _, out => ⟨out, .error .incomplete⟩
  | budget + 1, i, out =>
    match literals.read i with
    | .error fault => ⟨out, .error fault⟩
    | .ok (symbol, i) =>
      if symbol < endOfBlock then
        readSymbols literals distances budget i (out.push (UInt8.ofNat symbol))
      else if symbol = endOfBlock then ⟨out, .ok i⟩
      else
        let copy : Except DeflateFault ((Nat × Nat) × BitInput) := do
          let (length, i) ← readStretch lengthStretches (symbol - 257) i
          let (symbol, i) ← distances.read i
          let (distance, i) ← readStretch distanceStretches symbol i
          return ((length, distance), i)
        match copy with
        | .error fault => ⟨out, .error fault⟩
        | .ok ((length, distance), i) =>
          readSymbols literals distances budget i (copyBack distance length out)

/-- The bytes of a stored block: their count, its complement, and the bytes. -/
def readStored (bytes : Bytes) (out : Array UInt8) : Inflated :=
  match bytes with
  | a :: b :: c :: d :: rest =>
    let count := Bytes.littleEndian [a, b]
    if count + Bytes.littleEndian [c, d] ≠ 65535 then ⟨out, .error .corrupt⟩
    else
      let out := out.appendList (rest.take count)
      if rest.length < count then ⟨out, .error .incomplete⟩
      else ⟨out, .ok (.ofBytes (rest.drop count))⟩
  | _ => ⟨out, .error .incomplete⟩

/-- The code lengths of the fixed literal code. -/
def fixedLiteralLengths : List Nat :=
  List.replicate 144 8 ++ List.replicate 112 9 ++ List.replicate 24 7 ++ List.replicate 8 8

/-- The two fixed codes. -/
def fixedCodes : CodeTree × CodeTree :=
  ((CodeTree.ofLengths? false fixedLiteralLengths).getD .vacant,
    (CodeTree.ofLengths? false (List.replicate 32 5)).getD .vacant)

/-- The order in which the lengths of the code for lengths are listed. -/
def lengthOrder : List Nat := [16, 17, 18, 0, 8, 7, 9, 6, 10, 5, 11, 4, 12, 3, 13, 2, 14, 1, 15]

/-- The next `count` numbers of three bits, the last one first. -/
def readLengthLengths : (count : Nat) → BitInput → List Nat → Except DeflateFault ((List Nat) × BitInput)
  | 0, i, done => .ok (done, i)
  | n + 1, i, done => do
    let (length, i) ← i.number 3
    readLengthLengths n i (length :: done)

/-- Code lengths until there are `count` of them, the last one first: a length as it is,
the last one again, or a run of zeros. -/
def readLengths (code : CodeTree) (count : Nat) :
    (budget : Nat) → BitInput → List Nat → Except DeflateFault ((List Nat) × BitInput)
  | 0, _, _ => .error .incomplete
  | budget + 1, i, done =>
    if done.length = count then .ok (done, i)
    else if count < done.length then .error .corrupt
    else do
      let (symbol, i) ← code.read i
      if symbol < 16 then readLengths code count budget i (symbol :: done)
      else if symbol = 16 then
        match done with
        | [] => .error .corrupt
        | last :: _ =>
          let (more, i) ← i.number 2
          readLengths code count budget i (List.replicate (3 + more) last ++ done)
      else
        let (more, i) ← i.number (if symbol = 17 then 3 else 7)
        let run := (if symbol = 17 then 3 else 11) + more
        readLengths code count budget i (List.replicate run 0 ++ done)

/-- A result that must be there. -/
def orCorrupt {α : Type} : Option α → Except DeflateFault α
  | some a => .ok a
  | none => .error .corrupt

/-- The two codes at the start of a block that brings its own. -/
def readCodes (i : BitInput) : Except DeflateFault ((CodeTree × CodeTree) × BitInput) := do
  let (l, i) ← i.number 5
  let (d, i) ← i.number 5
  let (c, i) ← i.number 4
  if 29 < l || 29 < d then .error .corrupt
  else
    let (listed, i) ← readLengthLengths (c + 4) i []
    let found := lengthOrder.zip listed.reverse
    let lengths := (List.range 19).map fun s => ((found.find? (·.1 == s)).map (·.2)).getD 0
    let code ← orCorrupt (CodeTree.ofLengths? false lengths)
    let (reversed, i) ← readLengths code (l + 257 + (d + 1)) (l + d + 259) i []
    let all := reversed.reverse
    let literals ← orCorrupt (CodeTree.ofLengths? true (all.take (l + 257)))
    let distances ← orCorrupt (CodeTree.ofLengths? true (all.drop (l + 257)))
    return ((literals, distances), i)

/-- One block behind its two type bits. -/
def readBlock (kind : Nat) (budget : Nat) (i : BitInput) (out : Array UInt8) : Inflated :=
  match kind with
  | 0 => readStored i.aligned out
  | 1 => readSymbols fixedCodes.1 fixedCodes.2 budget i out
  | 2 =>
    match readCodes i with
    | .error fault => ⟨out, .error fault⟩
    | .ok (codes, i) => readSymbols codes.1 codes.2 budget i out
  | _ => ⟨out, .error .corrupt⟩

/-- The two fields in front of a block: whether it is the last, and its type. -/
def readBlockHead (i : BitInput) : Except DeflateFault ((Bool × Nat) × BitInput) := do
  let (last, i) ← i.bit
  let (kind, i) ← i.number 2
  return ((last, kind), i)

/-- Blocks up to the last one; no block is longer than `bits`, and there are at most
`budget` of them. -/
def readBlocks (bits : Nat) : (budget : Nat) → BitInput → Array UInt8 → Inflated
  | 0, _, out => ⟨out, .error .incomplete⟩
  | budget + 1, i, out =>
    match readBlockHead i with
    | .error fault => ⟨out, .error fault⟩
    | .ok ((last, kind), i) =>
      match readBlock kind bits i out with
      | ⟨out, .ok i⟩ => if last then ⟨out, .ok i⟩ else readBlocks bits budget i out
      | stopped => stopped

/-- What a deflate stream at the start of some bytes holds. -/
def inflate (bytes : Bytes) : Inflated :=
  let bits := 8 * bytes.length + 1
  readBlocks bits bits (.ofBytes bytes) #[]

end Wiretap.Coding
