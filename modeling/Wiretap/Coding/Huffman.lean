/-
  Wiretap.Coding.Huffman
  ──────────────────────
  **CANONICAL PREFIX CODES.**

  A code is given by the length of each symbol's code word.  Words are dealt out by
  length and then by symbol, counting upwards, and form a tree that is walked bit by bit.
-/
import Wiretap.Coding.Bits

namespace Wiretap.Coding

/-- A prefix code as a tree. -/
inductive CodeTree
  /-- No word goes here. -/
  | vacant
  /-- The end of a symbol's word. -/
  | leaf (symbol : Nat)
  /-- Where a word goes on with a zero or a one. -/
  | branch (zero one : CodeTree)
  deriving DecidableEq, Repr

namespace CodeTree

/-- The tree with a symbol at the end of a word. -/
def insert (symbol : Nat) : (word : List Bool) → CodeTree → CodeTree
  | [], _ => .leaf symbol
  | true :: word, .branch zero one => .branch zero (insert symbol word one)
  | false :: word, .branch zero one => .branch (insert symbol word zero) one
  | true :: word, _ => .branch .vacant (insert symbol word .vacant)
  | false :: word, _ => .branch (insert symbol word .vacant) .vacant

/-- The symbol whose word comes next. -/
def read : CodeTree → BitInput → Except DeflateFault (Nat × BitInput)
  | .vacant, _ => .error .corrupt
  | .leaf symbol, i => .ok (symbol, i)
  | .branch zero one, i => do
    let (b, i) ← i.bit
    if b then one.read i else zero.read i

/-- The longest word. -/
def maxLength : Nat := 15

/-- The lowest `length` bits of a number, the highest of them first. -/
def wordOf (length code : Nat) : List Bool :=
  ((List.range length).map fun k => code.testBit k).reverse

/-- The symbols with their lengths, by length and then by symbol. -/
def inOrder (lengths : List Nat) : List (Nat × Nat) :=
  (List.range maxLength).flatMap fun k =>
    lengths.zipIdx.filter fun e => e.1 == k + 1

/-- Deals out words from `code` on, each of the length given with its symbol. -/
def deal (tree : CodeTree) : (code length : Nat) → List (Nat × Nat) → CodeTree
  | _, _, [] => tree
  | code, length, (l, symbol) :: rest =>
    let code := code * Nat.pow 2 (l - length)
    deal (tree.insert symbol (wordOf l code)) (code + 1) l rest

/-- The share of all bit strings that the words of a code take up, in units of `2 ^ -15`. -/
def share (lengths : List Nat) : Nat :=
  lengths.foldl (fun sum l => if l = 0 then sum else sum + Nat.pow 2 (maxLength - l)) 0

/-- The code of some lengths, where zero stands for no word.  The words must take up all
bit strings; where `sparse` is set, a code may also have no word at all, or one word of one
bit.  A code without words still takes a bit before it fails. -/
def ofLengths? (sparse : Bool) (lengths : List Nat) : Option CodeTree :=
  let words := inOrder lengths
  if share lengths = Nat.pow 2 maxLength then some (deal .vacant 0 0 words)
  else if sparse then
    match words with
    | [] => some (.branch .vacant .vacant)
    | [(1, symbol)] => some (.branch (.leaf symbol) .vacant)
    | _ => none
  else none

end CodeTree

end Wiretap.Coding
