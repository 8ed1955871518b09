/-
  Wiretap.Proofs.DeflateFormat
  ────────────────────────────
  **WHAT A DEFLATE STREAM IS.**

  The format as the one who writes it sees it, without a reader.  A stream is a row of blocks,
  bit by bit.  A block stores bytes as they are, behind bits that fill up the byte begun and may
  have any value; or it spells symbols in two prefix codes, which are fixed or which it brings
  along.  A symbol stands for a byte, for the end of the block, or together with a distance for
  bytes that repeat what came before:

    • `Symbols`   — the symbols of a block and what they add to the output,
    • `Codes`     — the two codes in front of a block that brings its own,
    • `Blocks`    — blocks in a row, with the layout of each,
    • `IsDeflate` — a whole stream, in bytes.
-/
import Wiretap.Coding.Deflate
import Wiretap.Proofs.BitReading

namespace Wiretap

/-! ## §1. Numbers as bytes. -/

namespace Bytes

/-- A number as so many bytes, the lowest first. -/
def ofNumber : (count n : Nat) → Bytes
  | 0, _ => []
  | count + 1, n => UInt8.ofNat n :: ofNumber count (n / 256)

/-- A number is read back from as many bytes as it needs. -/
theorem littleEndian_ofNumber {count n : Nat} (h : n < Nat.pow 256 count) :
    littleEndian (ofNumber count n) = n := by
  induction count generalizing n with
  | zero =>
      obtain rfl : n = 0 := Nat.lt_one_iff.mp h
      rfl
  | succ count ih =>
      have hhigh : n / 256 < Nat.pow 256 count := by
        have htimes : n < Nat.pow 256 count * 256 := h
        omega
      rw [ofNumber, littleEndian, ih hhigh, UInt8.toNat_ofNat']
      omega

theorem ofNumber_littleEndian (bytes : Bytes) :
    ofNumber bytes.length (littleEndian bytes) = bytes := by
  induction bytes with
  | nil => rfl
  | cons b rest ih =>
      have hlt := b.toNat_lt
      have hlow : UInt8.ofNat (b.toNat + 256 * littleEndian rest) = b := by
        rw [← UInt8.toNat_inj, UInt8.toNat_ofNat']
        omega
      have hhigh : (b.toNat + 256 * littleEndian rest) / 256 = littleEndian rest := by omega
      rw [List.length_cons, littleEndian, ofNumber, hlow, hhigh, ih]

end Bytes

namespace Coding

variable {literals distances code : CodeTree} {position : Nat} {bits : List Bool} {out out' : Bytes}

/-! ## §2. Symbols. -/

/-- A value that a symbol and the bits behind it stand for. -/
inductive StretchBits (stretches : Array Stretch) (symbol : Nat) : List Bool → Nat → Prop
  | value {stretch : Stretch} {more : Nat} (hstretch : stretches[symbol]? = some stretch)
      (hmore : more < Nat.pow 2 stretch.extra) :
      StretchBits stretches symbol (numberBits stretch.extra more) (stretch.base + more)

/-- New bytes repeat the output from a distance back, each of them the one that stands so far
before it; they may run into themselves. -/
def Repeats (distance : Nat) (out new : Bytes) : Prop :=
  ∀ k, k < new.length → (out ++ new)[out.length + k]? = (out ++ new)[out.length + k - distance]?

/-- The symbols of a block, from some output to that at its end. -/
inductive Symbols (literals distances : CodeTree) : List Bool → Bytes → Bytes → Prop
  | finish {word : List Bool} {out : Bytes} (hword : literals.Word word endOfBlock) :
      Symbols literals distances word out out
  | literal {word bits : List Bool} {byte : UInt8} {out out' : Bytes}
      (hword : literals.Word word byte.toNat)
      (hrest : Symbols literals distances bits (out ++ [byte]) out') :
      Symbols literals distances (word ++ bits) out out'
  | copy {word extra word' extra' bits : List Bool} {symbol symbol' distance : Nat}
      {out new out' : Bytes} (hword : literals.Word word (257 + symbol))
      (hlength : StretchBits lengthStretches symbol extra new.length)
      (hword' : distances.Word word' symbol')
      (hdistance : StretchBits distanceStretches symbol' extra' distance)
      (hback : distance ≤ out.length) (hnew : Repeats distance out new)
      (hrest : Symbols literals distances bits (out ++ new) out') :
      Symbols literals distances (word ++ ((extra ++ (word' ++ extra')) ++ bits)) out out'

/-! ## §3. Codes. -/

/-- The code lengths that a symbol and the bits behind it add to those before: a length as it is,
the last one three to six times more, or a run of zeros. -/
inductive LengthRun : (before : List Nat) → (symbol : Nat) → List Bool → List Nat → Prop
  | one {before : List Nat} {length : Nat} (hlength : length < 16) :
      LengthRun before length [] [length]
  | again {before : List Nat} {last more : Nat} (hmore : more < 4) :
      LengthRun (before ++ [last]) 16 (numberBits 2 more) (List.replicate (3 + more) last)
  | zeros {before : List Nat} {more : Nat} (hmore : more < 8) :
      LengthRun before 17 (numberBits 3 more) (List.replicate (3 + more) 0)
  | manyZeros {before : List Nat} {more : Nat} (hmore : more < 128) :
      LengthRun before 18 (numberBits 7 more) (List.replicate (11 + more) 0)

/-- Code lengths in a row, behind those that came before. -/
inductive Lengths (code : CodeTree) : (before : List Nat) → List Bool → List Nat → Prop
  | finish {all : List Nat} : Lengths code all [] all
  | run {word extra bits : List Bool} {symbol : Nat} {before new all : List Nat}
      (hword : code.Word word symbol) (hrun : LengthRun before symbol extra new)
      (hrest : Lengths code (before ++ new) bits all) :
      Lengths code before (word ++ (extra ++ bits)) all

/-- The code for code lengths.  Its own lengths are listed in an order of their own, and what is
not listed any more has none. -/
def lengthsCode? (listed : List Nat) : Option CodeTree :=
  CodeTree.ofLengths? false ((List.range 19).map fun symbol =>
    (((lengthOrder.zip listed).find? (·.1 == symbol)).map (·.2)).getD 0)

/-- The two codes that a block brings: how many symbols they have, the code for code lengths, and
the lengths of both in it.  There are at most 286 and 30 symbols, as no other has a value. -/
inductive Codes : List Bool → CodeTree × CodeTree → Prop
  | brought {l d : Nat} {listed all : List Nat} {code literals distances : CodeTree}
      {bits : List Bool} (hl : l ≤ 29) (hd : d ≤ 29) (hfour : 4 ≤ listed.length)
      (hlisted : listed.length ≤ 19) (hsmall : ∀ length ∈ listed, length < 8)
      (hcode : lengthsCode? listed = some code) (hlengths : Lengths code [] bits all)
      (hcount : all.length = l + 257 + (d + 1))
      (hliterals : CodeTree.ofLengths? true (all.take (l + 257)) = some literals)
      (hdistances : CodeTree.ofLengths? true (all.drop (l + 257)) = some distances) :
      Codes (numberBits 5 l ++ (numberBits 5 d ++ (numberBits 4 (listed.length - 4)
        ++ (listed.flatMap (numberBits 3) ++ bits)))) (literals, distances)

/-! ## §4. Blocks. -/

/-- How a block is laid out. -/
inductive Layout
  /-- So many bytes as they are, behind bits that fill up the byte begun. -/
  | stored (padding : List Bool) (size : Nat)
  /-- Symbols in the fixed codes. -/
  | fixed
  /-- Symbols in codes that the block brings. -/
  | dynamic
  deriving DecidableEq, Repr

/-- The number by which a block tells its layout. -/
def Layout.kind : Layout → Nat
  | .stored .. => 0
  | .fixed => 1
  | .dynamic => 2

theorem Layout.kind_lt (layout : Layout) : layout.kind < Nat.pow 2 2 := by
  cases layout with
  | stored => exact Nat.zero_lt_succ 3
  | fixed => exact Nat.one_lt_succ_succ 2
  | dynamic => exact Nat.lt_of_sub_eq_succ rfl

/-- The most bytes of a stored block. -/
def maxStored : Nat := 65535

/-- Bytes to be stored, with their number and its complement in front. -/
def storedBytes (data : Bytes) : Bytes :=
  Bytes.ofNumber 2 data.length ++ (Bytes.ofNumber 2 (maxStored - data.length) ++ data)

/-- A block behind the bits that tell its layout; `position` is the number of bits before it. -/
inductive Block (position : Nat) : Layout → List Bool → Bytes → Bytes → Prop
  | stored {padding : List Bool} {data out : Bytes} (hpadding : padding.length < 8)
      (haligned : (position + padding.length) % 8 = 0) (hsize : data.length ≤ maxStored) :
      Block position (.stored padding data.length) (padding ++ bitsOfBytes (storedBytes data)) out
        (out ++ data)
  | fixed {bits : List Bool} {out out' : Bytes}
      (hsymbols : Symbols fixedCodes.1 fixedCodes.2 bits out out') :
      Block position .fixed bits out out'
  | dynamic {head bits : List Bool} {codes : CodeTree × CodeTree} {out out' : Bytes}
      (hcodes : Codes head codes) (hsymbols : Symbols codes.1 codes.2 bits out out') :
      Block position .dynamic (head ++ bits) out out'

/-- The bits in front of a block: whether it is the last, and its layout. -/
def headBits (last : Bool) (layout : Layout) : List Bool := [last] ++ numberBits 2 layout.kind

/-- Blocks up to the last one. -/
inductive Blocks : Nat → List Layout → List Bool → Bytes → Bytes → Prop
  | last {position : Nat} {layout : Layout} {bits : List Bool} {out out' : Bytes}
      (hblock : Block (position + 3) layout bits out out') :
      Blocks position [layout] (headBits true layout ++ bits) out out'
  | more {position : Nat} {layout : Layout} {layouts : List Layout} {bits rest : List Bool}
      {out between out' : Bytes} (hblock : Block (position + 3) layout bits out between)
      (hrest : Blocks (position + 3 + bits.length) layouts rest between out') :
      Blocks position (layout :: layouts) (headBits false layout ++ (bits ++ rest)) out out'

/-- Some bytes are a deflate stream of a payload, with blocks of these layouts.  What is left of
the last byte is not used. -/
def IsDeflate (layouts : List Layout) (coded payload : Bytes) : Prop :=
  ∃ bits fill, bitsOfBytes coded = bits ++ fill ∧ fill.length < 8
    ∧ Blocks 0 layouts bits [] payload

end Coding

end Wiretap
