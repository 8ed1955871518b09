/-
  Wiretap.Proofs.Bodies
  ─────────────────────
  **THE FIRST BYTES OF A BODY AND THE WHOLE OF IT.**

  Both readers of a body undo its coding.  Where the whole can be read, so can its first bytes,
  and they are those of the whole, with a flag for more.  The exception is the largest limit:
  the count of bytes to ask for is one more than the limit, and there the sum overflows, which
  is a panic.

    • `Decoder.first_of_all`        — who can read all can read the first bytes,
    • `Body.probe_of_raw`           — a body whose bytes can be read can be opened,
    • `Body.firstBytes_content_iff` — at which limits the two readers agree.
-/
import Mathlib.Control.Monad.Basic
import Wiretap.Capture.Body

namespace Wiretap

/-! ## §1. Decoders. -/

/-- Where no fault spoils the whole, the first bytes are those of the whole. -/
theorem Coding.Decoder.first_of_all {d : Decoder} {coded bytes : Bytes}
    (h : d.all coded = .ok bytes) (wanted : Nat) :
    d.first coded wanted = .ok (bytes.take wanted) := by
  unfold all at h
  simp only at h
  split at h
  next hnone =>
    cases h
    simp only [first, hnone]
  next => cases h

/-! ## §2. Bodies. -/

namespace Body

variable {b : Body} {disk : Disk} {bytes : Bytes} {limit : UInt64}

/-- The whole of a body is all that its decoder makes of the bytes that were captured. -/
theorem content_ok (h : b.content disk = .ok bytes) :
    ∃ raw, b.raw disk = .ok raw ∧ b.coding.decoder.all raw = .ok bytes := by
  unfold content at h
  split at h
  next => cases h
  next raw hraw =>
    refine ⟨raw, hraw, ?_⟩
    cases hall : b.coding.decoder.all raw with
    | error fault =>
        rw [hall] at h
        cases h
    | ok decoded =>
        rw [hall] at h
        cases h
        rfl

/-- A body whose bytes can be read can be opened. -/
theorem probe_of_raw {raw : Bytes} (h : b.raw disk = .ok raw) : b.probe disk = .ok () := by
  have hopen : b.openFault disk = none := by
    unfold Body.raw at h
    unfold openFault
    split
    next => rfl
    next path length hsource =>
      rw [hsource] at h
      simp only [Disk.readUpTo] at h
      cases hfind : disk.find path with
      | ok found => rfl
      | error fault =>
          -- what is not found cannot be read
          rw [hfind] at h
          cases h
  unfold probe
  rw [hopen, h]
  cases b.coding <;> rfl

/-- Below the largest limit the first bytes are those of the whole, and one byte more tells
whether there are others. -/
theorem firstBytes_of_content (h : b.content disk = .ok bytes)
    (hlimit : limit.toNat + 1 < UInt64.size) :
    b.firstBytes disk limit
      = .ok (bytes.take limit.toNat, decide (limit.toNat < bytes.length)) := by
  obtain ⟨raw, hraw, hall⟩ := content_ok h
  have hlonger : limit.toNat < (bytes.take (limit.toNat + 1)).length
      ↔ limit.toNat < bytes.length := by
    rw [List.length_take]
    omega
  simp only [firstBytes, if_pos hlimit, hraw, Coding.Decoder.first_of_all hall,
    List.take_take, Nat.min_eq_left (Nat.le_succ _), hlonger]

/-- At the largest limit a body that can be opened gives nothing: counting the bytes to ask for
overflows. -/
theorem firstBytes_of_largest (h : b.probe disk = .ok ())
    (hlimit : limit.toNat + 1 = UInt64.size) : b.firstBytes disk limit = .error .overflow := by
  simp only [firstBytes, if_neg (Nat.not_lt.mpr (Nat.le_of_eq hlimit.symm)), h]

/-- **The first bytes of a body are those of its content, at every limit but one.**  Where the
whole of a body can be read, in memory or on disk and whatever its coding, its first bytes at a
limit are that many of the content, with a flag that tells whether there are more.  The largest
limit is the exception: there the reader panics, whatever the content is. -/
theorem firstBytes_content_iff (h : b.content disk = .ok bytes) (limit : UInt64) :
    (b.firstBytes disk limit
        = .ok (bytes.take limit.toNat, decide (limit.toNat < bytes.length))
      ↔ limit.toNat + 1 < UInt64.size)
    ∧ (limit.toNat + 1 = UInt64.size → b.firstBytes disk limit = .error .overflow) := by
  obtain ⟨raw, hraw, -⟩ := content_ok h
  have hlargest : limit.toNat + 1 = UInt64.size → b.firstBytes disk limit = .error .overflow :=
    firstBytes_of_largest (probe_of_raw hraw)
  refine ⟨⟨fun hagree => ?_, firstBytes_of_content h⟩, hlargest⟩
  rcases Nat.lt_or_ge (limit.toNat + 1) UInt64.size with hbelow | habove
  · exact hbelow
  · -- a panic is no result
    rw [hlargest (Nat.le_antisymm limit.toNat_lt_size habove)] at hagree
    cases hagree

/-- A disk with one file, which holds `abc` as a stored block without a zlib wrapping. -/
def storedBlock : Disk :=
  (Disk.ofDirectories [] []).put ["b"] (.file 7 [1, 3, 0, 252, 255, 97, 98, 99])

/-- The same of a coded file of which two bytes are asked for. -/
theorem firstBytes_content_of_two :
    Body.content ⟨.file (.ofText "/b") 8, .deflate⟩ storedBlock = .ok [97, 98, 99]
      ∧ Body.firstBytes ⟨.file (.ofText "/b") 8, .deflate⟩ storedBlock 2
          = .ok ([97, 98], true) := by
  have hcontent : Body.content ⟨.file (.ofText "/b") 8, .deflate⟩ storedBlock
      = .ok [97, 98, 99] := by decide +kernel
  exact ⟨hcontent, (firstBytes_content_iff hcontent 2).1.mpr (by decide)⟩

/-- A limit that is no limit at all makes the reader of three bytes panic. -/
theorem largest_limit_overflows :
    Body.content ⟨.memory [97, 98, 99], .identity⟩ (Disk.ofDirectories [] []) = .ok [97, 98, 99]
      ∧ Body.firstBytes ⟨.memory [97, 98, 99], .identity⟩ (Disk.ofDirectories [] [])
          18446744073709551615 = .error .overflow :=
  ⟨rfl, rfl⟩

end Body

end Wiretap
