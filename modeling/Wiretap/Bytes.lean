/-
  Wiretap.Bytes
  ─────────────
  **BYTE STRINGS.**

  Bodies, files and header values are lists of bytes.  The one operation that lists do
  not have is `overwrite`: the content of a file after some bytes landed at an offset.
-/

namespace Wiretap

/-- A string of bytes. -/
abbrev Bytes := List UInt8

namespace Bytes

/-- The content after `data` landed at `offset`; a gap before the offset reads as zeros.  Where
nothing lands, no gap is filled either. -/
def overwrite (content : Bytes) (offset : Nat) (data : Bytes) : Bytes :=
  if data.isEmpty then content
  else content.take offset ++ List.replicate (offset - content.length) 0 ++ data
    ++ content.drop (offset + data.length)

theorem overwrite_nil (content : Bytes) (offset : Nat) : content.overwrite offset [] = content :=
  rfl

/-- Data that lands in a content, or right behind it, leaves no gap. -/
theorem overwrite_of_le {content : Bytes} {offset : Nat} (h : offset ≤ content.length)
    (data : Bytes) :
    content.overwrite offset data
      = content.take offset ++ data ++ content.drop (offset + data.length) := by
  have hgap : offset - content.length = 0 := by omega
  cases data with
  | nil => simp [overwrite]
  | cons b data => simp [overwrite, hgap]

/-- Data that lands at the end of a content extends it. -/
theorem overwrite_length (content data : Bytes) :
    content.overwrite content.length data = content ++ data := by
  simp [overwrite_of_le (Nat.le_refl _)]

/-- The value of the bytes read as digits in base 256, least significant first. -/
def littleEndian : Bytes → Nat
  | [] => 0
  | b :: rest => b.toNat + 256 * littleEndian rest

end Bytes

end Wiretap
