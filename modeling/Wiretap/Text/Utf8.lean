/-
  Wiretap.Text.Utf8
  ─────────────────
  **UTF-8, STRICT AND FORGIVING.**

  `piece` takes the next piece off a byte string: one well-formed character, or one
  maximal ill-formed piece (as much of a character's encoding as is there, at least one
  byte).  Both readers go through it:

    • `decode?` refuses a text with an ill-formed piece,
    • `decodeLossy` writes one replacement character for each.
-/
import Wiretap.Bytes

namespace Wiretap.Utf8

/-! ## §1. Writing. -/

/-- The bytes of a text. -/
def encode (s : String) : Bytes := s.toList.flatMap String.utf8EncodeChar

/-! ## §2. One piece. -/

/-- How many bytes follow this first byte, and the range its second byte must lie in. -/
def leadShape (b : UInt8) : Option (Nat × UInt8 × UInt8) :=
  if b < 0x80 then some (0, 0x80, 0xBF)
  else if b < 0xC2 then none
  else if b < 0xE0 then some (1, 0x80, 0xBF)
  else if b == 0xE0 then some (2, 0xA0, 0xBF)
  else if b == 0xED then some (2, 0x80, 0x9F)
  else if b < 0xF0 then some (2, 0x80, 0xBF)
  else if b == 0xF0 then some (3, 0x90, 0xBF)
  else if b < 0xF4 then some (3, 0x80, 0xBF)
  else if b == 0xF4 then some (3, 0x80, 0x8F)
  else none

/-- The payload bits of the first byte of a character with `following` more bytes. -/
def leadBits (following : Nat) (b : UInt8) : Nat :=
  match following with
  | 0 => b.toNat
  | 1 => b.toNat % 32
  | 2 => b.toNat % 16
  | _ => b.toNat % 8

/-- Reads `following` continuation bytes onto `code`; ill-formed at the first that does not fit. -/
def continueChar (code : Nat) : (following : Nat) → (lo hi : UInt8) → Bytes → Option Char × Bytes
  | 0, _, _, rest => (some (Char.ofNat code), rest)
  | _ + 1, _, _, [] => (none, [])
  | n + 1, lo, hi, b :: rest =>
    if lo ≤ b && b ≤ hi then continueChar (code * 64 + b.toNat % 64) n 0x80 0xBF rest
    else (none, b :: rest)

theorem continueChar_length (following : Nat) :
    ∀ (code : Nat) (lo hi : UInt8) (bytes : Bytes),
      (continueChar code following lo hi bytes).2.length ≤ bytes.length := by
  induction following with
  | zero => intro code lo hi bytes; exact Nat.le_refl _
  | succ n ih =>
    intro code lo hi bytes
    cases bytes with
    | nil => exact Nat.le_refl _
    | cons b rest =>
      simp only [continueChar]
      split
      · exact Nat.le_trans (ih ..) (Nat.le_succ _)
      · exact Nat.le_refl _

/-- The first piece of `first :: rest`: its character, or nothing where it is ill-formed. -/
def piece (first : UInt8) (rest : Bytes) : Option Char × Bytes :=
  match leadShape first with
  | none => (none, rest)
  | some (following, lo, hi) => continueChar (leadBits following first) following lo hi rest

theorem piece_length (first : UInt8) (rest : Bytes) :
    (piece first rest).2.length ≤ rest.length := by
  unfold piece
  split
  · exact Nat.le_refl _
  · exact continueChar_length ..

/-! ## §3. Reading. -/

/-- The pieces of a byte string, in order. -/
def pieces (bytes : Bytes) : List (Option Char) := go [] bytes
where
  /-- Takes piece after piece; `done` holds those taken so far, the last one first. -/
  go (done : List (Option Char)) : Bytes → List (Option Char)
    | [] => done.reverse
    | first :: rest =>
      let next := piece first rest
      go (next.1 :: done) next.2
  termination_by bytes => bytes.length
  decreasing_by exact Nat.lt_succ_of_le (piece_length first rest)

/-- The text that the bytes encode; nothing when a piece is ill-formed. -/
def decode? (bytes : Bytes) : Option String :=
  ((pieces bytes).mapM id).map String.ofList

/-- The text of the bytes, with U+FFFD for each ill-formed piece. -/
def decodeLossy (bytes : Bytes) : String :=
  String.ofList ((pieces bytes).map fun c => c.getD (Char.ofNat 0xFFFD))

end Wiretap.Utf8
