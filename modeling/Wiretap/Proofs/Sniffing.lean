/-
  Wiretap.Proofs.Sniffing
  ───────────────────────
  **HOW THE WRAPPING OF A DEFLATE BODY IS GUESSED.**

  A body that is coded as deflate is a zlib stream or a plain deflate stream, and two bytes decide
  which.  No zlib stream is missed.  A plain stream is taken for one just when it begins with a
  stored block, not the last one, whose padding bits and size happen to look like a header:

    • `looksLikeZlib_iff`                  — which plain streams these are,
    • `Body.deflate_reads_back_iff`        — what can be read back, however it is wrapped,
    • `Body.padding_hides_content`         — a body that cannot, although its stream is whole.
-/
import Wiretap.Proofs.Bodies
import Wiretap.Proofs.Wrappings

namespace Wiretap

namespace Coding

variable {layouts : List Layout} {coded payload : Bytes} {front more : List Bool}

/-! ## §1. The first byte. -/

/-- Bits in front of a byte string are the low bits of its first byte. -/
theorem exists_of_front (hbits : bitsOfBytes coded = front ++ more) (hsome : front ≠ [])
    (hlength : front.length ≤ 8) :
    ∃ b rest, coded = b :: rest ∧ b.toNat % Nat.pow 2 front.length = bitValue front := by
  cases coded with
  | nil => exact absurd (List.append_eq_nil_iff.mp hbits.symm).1 hsome
  | cons b rest =>
      refine ⟨b, rest, rfl, ?_⟩
      have hfront : front <+: bitsOf b := by
        refine List.prefix_of_prefix_length_le (List.prefix_append front more) ?_ hlength
        rw [← hbits, bitsOfBytes_cons]
        exact List.prefix_append _ _
      obtain ⟨high, hhigh⟩ := hfront
      rw [← bitValue_bitsOf, ← hhigh, bitValue_append, Nat.add_mul_mod_self_left,
        Nat.mod_eq_of_lt (bitValue_lt front)]

theorem bitValue_headBits (last : Bool) (layout : Layout) :
    bitValue (headBits last layout) = last.toNat + 2 * layout.kind := by
  rw [headBits, List.singleton_append, bitValue, bitValue_numberBits layout.kind_lt]

/-- What looks like a zlib header names the method in the low half of its first byte. -/
theorem looksLikeZlib_mod {b : UInt8} {rest : Bytes} (h : looksLikeZlib (b :: rest) = true) :
    b.toNat % 16 = 8 := by
  cases rest with
  | nil => cases h
  | cons c rest =>
      rw [looksLikeZlib, Bool.and_eq_true, beq_iff_eq, beq_iff_eq] at h
      exact h.1

/-- Only a stored block that is not the last one looks like a zlib header. -/
theorem looksLikeZlib_of_head {last : Bool} {layout : Layout}
    (hbits : bitsOfBytes coded = headBits last layout ++ more) (h : looksLikeZlib coded = true) :
    last = false ∧ layout.kind = 0 := by
  obtain ⟨b, rest, rfl, hmod⟩ := exists_of_front hbits (List.cons_ne_nil _ _)
    (Nat.le_add_left 3 5)
  have hlow : b.toNat % 8 = last.toNat + 2 * layout.kind := by
    rw [← bitValue_headBits]
    exact hmod
  have hmethod := looksLikeZlib_mod h
  cases last with
  | true =>
      have htrue : Bool.toNat true = 1 := rfl
      omega
  | false =>
      have hfalse : Bool.toNat false = 0 := rfl
      exact ⟨rfl, by omega⟩

/-! ## §2. Mistaken streams. -/

/-- Streams that look like a zlib header: a stored block that is not the last one comes first,
the first bit that fills up its byte is set, and all five of them fit the low byte of its size. -/
def Mistaken : List Layout → Prop
  | .stored padding size :: _ :: _ =>
    padding.head? = some true ∧ (2048 * bitValue padding + size % 256) % 31 = 0
  | _ => False

/-- Mistaken streams whose two bytes no zlib decoder takes: the window would be too large, or
a dictionary preset. -/
def Refused : List Layout → Prop
  | .stored padding size :: _ => 16 ≤ bitValue padding ∨ size / 32 % 2 = 1
  | _ => False

/-- A stream begins with the head of its first block. -/
theorem IsDeflate.head {layout : Layout} (h : IsDeflate (layout :: layouts) coded payload) :
    ∃ more, bitsOfBytes coded = headBits layouts.isEmpty layout ++ more := by
  obtain ⟨bits, fill, hcoded, -, hblocks⟩ := h
  rw [hcoded]
  cases hblocks with
  | last => exact ⟨_, List.append_assoc _ _ _⟩
  | more _ hrest =>
      cases hrest with
      | last => exact ⟨_, List.append_assoc _ _ _⟩
      | more => exact ⟨_, List.append_assoc _ _ _⟩

/-- The first two bytes of a stream that begins with a stored block, not the last one: the bits
that fill up the first byte, and the low byte of the size. -/
theorem IsDeflate.stored_first {padding : List Bool} {size : Nat} {next : Layout}
    (h : IsDeflate (.stored padding size :: next :: layouts) coded payload) :
    ∃ a b rest, coded = a :: b :: rest ∧ a.toNat = 8 * bitValue padding
      ∧ b.toNat = size % 256 := by
  obtain ⟨bits, fill, hcoded, -, hblocks⟩ := h
  cases hblocks with
  | @more _ _ _ _ rest _ _ _ hblock hrest =>
      cases hblock with
      | @stored _ data _ hpadding haligned hsize =>
          cases coded with
          | nil => cases hcoded
          | cons a behind =>
              -- three bits of the head and five more are the first byte
              have hfirst : (bitsOf a).length
                  = (headBits false (.stored padding data.length) ++ padding).length := by
                rw [List.length_append, length_bitsOf]
                show 8 = 3 + padding.length
                omega
              rw [bitsOfBytes_cons, List.append_assoc, List.append_assoc, List.append_assoc,
                ← List.append_assoc] at hcoded
              obtain ⟨ha, hbehind⟩ := List.append_inj hcoded hfirst
              obtain ⟨behind, rfl, -⟩ := exists_of_bitsOfBytes_eq hbehind
              refine ⟨a, _, _, rfl, ?_, UInt8.toNat_ofNat'⟩
              rw [← bitValue_bitsOf, ha, bitValue_append, bitValue_headBits]
              show 0 + 2 * 0 + 8 * bitValue padding = 8 * bitValue padding
              omega

/-- **A plain deflate stream looks like a zlib stream just when it is one of those.** -/
theorem looksLikeZlib_iff (h : IsDeflate layouts coded payload) :
    looksLikeZlib coded = true ↔ Mistaken layouts := by
  match layouts, h with
  | [], ⟨_, _, _, _, hblocks⟩ => cases hblocks
  | [layout], h =>
      obtain ⟨more, hhead⟩ := h.head
      refine iff_of_false (fun hlooks => ?_) ?_
      · cases (looksLikeZlib_of_head hhead hlooks).1
      · cases layout <;> exact not_false
  | .fixed :: _ :: _, h =>
      obtain ⟨more, hhead⟩ := h.head
      refine iff_of_false (fun hlooks => ?_) not_false
      cases (looksLikeZlib_of_head hhead hlooks).2
  | .dynamic :: _ :: _, h =>
      obtain ⟨more, hhead⟩ := h.head
      refine iff_of_false (fun hlooks => ?_) not_false
      cases (looksLikeZlib_of_head hhead hlooks).2
  | .stored padding size :: _ :: _, h =>
      obtain ⟨a, b, rest, rfl, ha, hb⟩ := h.stored_first
      have hfirst : 8 * bitValue padding % 16 = 8 ↔ padding.head? = some true := by
        cases padding with
        | nil => exact iff_of_false (by decide) (by decide)
        | cons bit padding =>
            rw [bitValue, List.head?_cons, Option.some.injEq]
            cases bit with
            | true => exact iff_of_true (by rw [Bool.toNat_true]; omega) rfl
            | false => exact iff_of_false (by rw [Bool.toNat_false]; omega) Bool.false_ne_true
      have hsum : 8 * bitValue padding * 256 + size % 256
          = 2048 * bitValue padding + size % 256 := by omega
      rw [looksLikeZlib, Bool.and_eq_true, beq_iff_eq, beq_iff_eq, ha, hb, hfirst, hsum, Mistaken]

/-- The header that a mistaken stream seems to have may be one that the decoder refuses. -/
theorem decodeZlib_refused (h : IsDeflate layouts coded payload) (hmistaken : Mistaken layouts)
    (hrefused : Refused layouts) : decodeZlib coded = .failed (.deflate .corrupt) := by
  match layouts, h, hmistaken with
  | .stored padding size :: _ :: _, h, _ =>
      obtain ⟨a, b, rest, rfl, ha, hb⟩ := h.stored_first
      have hnot : acceptsZlibHeader a b = false := by
        rw [acceptsZlibHeader, ha, hb, Bool.and_eq_false_iff, decide_eq_false_iff_not,
          beq_eq_false_iff_ne]
        rcases hrefused with hwindow | hdictionary
        · exact Or.inl (by omega)
        · exact Or.inr (by omega)
      simp only [decodeZlib, hnot, if_neg Bool.false_ne_true]

theorem decodeRaw_eq (h : IsDeflate layouts coded payload) : decodeRaw coded = ⟨payload, none⟩ := by
  obtain ⟨i, hread, -⟩ := inflate_append h []
  rw [List.append_nil] at hread
  simp only [decodeRaw, hread]

end Coding

/-! ## §3. Bodies. -/

namespace Body

open Coding

variable {b : Body} {disk : Disk} {coded payload : Bytes}

/-- **What a deflate body reads back as.**  In memory or on disk, a zlib stream gives its payload.
A plain deflate stream gives its payload unless it is mistaken for a zlib stream; then it is read
as one, and gives the payload only if it is one of the same payload as well, and never where the
header that it seems to have is one that no decoder takes. -/
theorem deflate_reads_back_iff (hcoding : b.coding = .deflate) (hraw : b.raw disk = .ok coded) :
    (∀ header layouts deflated, IsDeflate layouts deflated payload →
        coded = (Wrapping.zlib header).wrap deflated ((Wrapping.zlib header).checks payload) →
        b.content disk = .ok payload)
      ∧ ∀ layouts, IsDeflate layouts coded payload →
        (b.content disk = .ok payload
            ↔ (Mistaken layouts → decodeZlib coded = ⟨payload, none⟩))
          ∧ (Mistaken layouts → Refused layouts →
            b.content disk = .error (.coding (.deflate .corrupt))) := by
  have hdecode : b.coding.decoder.decode coded = decodeDeflate coded := by
    rw [hcoding]
    rfl
  constructor
  · intro header layouts deflated h hwhole
    have hchecked := (Wrapping.zlib header).decode_checked h rfl []
    rw [List.append_nil, if_pos rfl, ← hwhole] at hchecked
    exact (content_eq_ok_iff hraw).mpr (hdecode.trans hchecked)
  · intro layouts h
    rw [content_eq_ok_iff hraw, hdecode, decodeDeflate]
    by_cases hmistaken : Mistaken layouts
    · rw [if_pos ((looksLikeZlib_iff h).mpr hmistaken)]
      refine ⟨⟨fun hzlib _ => hzlib, fun hzlib => hzlib hmistaken⟩, fun _ hrefused => ?_⟩
      refine content_of_fault hraw ?_
      rw [hdecode, decodeDeflate, if_pos ((looksLikeZlib_iff h).mpr hmistaken),
        decodeZlib_refused h hmistaken hrefused]
      rfl
    · rw [if_neg (mt (looksLikeZlib_iff h).mp hmistaken)]
      exact ⟨iff_of_true (decodeRaw_eq h) fun hno => absurd hno hmistaken,
        fun hno => absurd hno hmistaken⟩

/-- A plain deflate stream of three bytes behind an empty block; the padding bits of this block
are all set. -/
def paddedStream : Bytes := [248, 0, 0, 255, 255, 1, 3, 0, 252, 255, 97, 98, 99]

theorem paddedStream_isDeflate :
    IsDeflate [.stored (List.replicate 5 true) 0, .stored (List.replicate 5 false) 3] paddedStream
      [97, 98, 99] := by
  have hbits : bitsOfBytes paddedStream
      = headBits false (.stored (List.replicate 5 true) 0)
        ++ ((List.replicate 5 true ++ bitsOfBytes (storedBytes []))
          ++ (headBits true (.stored (List.replicate 5 false) 3)
            ++ (List.replicate 5 false ++ bitsOfBytes (storedBytes [97, 98, 99])))) := by
    decide
  have hsmall : ([97, 98, 99] : Bytes).length ≤ maxStored := by decide
  exact ⟨_, [], (List.append_nil _).symm, by decide, hbits ▸
    .more (.ofPiece rfl [] (Nat.zero_le _) rfl [])
      (.last (.ofPiece rfl [97, 98, 99] hsmall rfl []))⟩

/-- A plain deflate stream of five equal bytes in the fixed codes: two of them spelled out, and
three that repeat the one before. -/
def repeatingStream : Bytes := [75, 76, 4, 2, 0]

theorem repeatingStream_isDeflate :
    IsDeflate [.fixed] repeatingStream [97, 97, 97, 97, 97] := by
  have hbyte : fixedCodes.1.Word [true, false, false, true, false, false, false, true]
      (97 : UInt8).toNat := ⟨by decide, by decide +kernel⟩
  have hfinish : fixedCodes.1.Word (List.replicate 7 false) endOfBlock :=
    ⟨by decide, by decide +kernel⟩
  have hcopy : fixedCodes.1.Word [false, false, false, false, false, false, true] (257 + 0) :=
    ⟨by decide, by decide +kernel⟩
  have hnearest : fixedCodes.2.Word (List.replicate 5 false) 0 := ⟨by decide, by decide +kernel⟩
  have hthree : lengthStretches[0]? = some ⟨3, 0⟩ := rfl
  have hone : distanceStretches[0]? = some ⟨1, 0⟩ := rfl
  have hlength : StretchBits lengthStretches 0 (numberBits 0 0) ([97, 97, 97] : Bytes).length :=
    .value hthree Nat.one_pos
  have hdistance : StretchBits distanceStretches 0 (numberBits 0 0) 1 := .value hone Nat.one_pos
  have hrepeats : Repeats 1 [97, 97] [97, 97, 97] := by
    unfold Repeats
    decide
  have hsymbols : Symbols fixedCodes.1 fixedCodes.2 _ [] [97, 97, 97, 97, 97] :=
    .literal hbyte (.literal hbyte
      (.copy hcopy hlength hnearest hdistance (Nat.le_succ 1) hrepeats (.finish hfinish)))
  exact ⟨_, [false, false], by decide, by decide, .last (.fixed hsymbols)⟩

/-- The same of a stored block on disk and of this stream in memory, which are read back, and of
the mistaken stream, which is not. -/
theorem deflate_reads_back_of_three :
    Body.content ⟨.file (.ofText "/b") 8, .deflate⟩ storedBlock = .ok [97, 98, 99]
      ∧ Body.content ⟨.memory repeatingStream, .deflate⟩ storedBlock = .ok [97, 97, 97, 97, 97]
      ∧ Body.content ⟨.memory paddedStream, .deflate⟩ storedBlock
          = .error (.coding (.deflate .corrupt)) := by
  have hfile : Body.raw ⟨.file (.ofText "/b") 8, .deflate⟩ storedBlock
      = .ok [1, 3, 0, 252, 255, 97, 98, 99] := by decide +kernel
  have hrepeating : Body.raw ⟨.memory repeatingStream, .deflate⟩ storedBlock
      = .ok repeatingStream := rfl
  have hpadded : Body.raw ⟨.memory paddedStream, .deflate⟩ storedBlock = .ok paddedStream := rfl
  let split : Split [97, 98, 99] := ⟨[[97, 98, 99]], List.cons_ne_nil _ _, by decide, rfl⟩
  exact ⟨((deflate_reads_back_iff rfl hfile).2 _ split.isDeflate).1.mpr False.elim,
    ((deflate_reads_back_iff rfl hrepeating).2 _ repeatingStream_isDeflate).1.mpr False.elim,
    ((deflate_reads_back_iff rfl hpadded).2 _ paddedStream_isDeflate).2 ⟨rfl, by decide⟩
      (Or.inl (by decide))⟩

/-- A whole deflate stream that cannot be read back. -/
theorem padding_hides_content :
    IsDeflate [.stored (List.replicate 5 true) 0, .stored (List.replicate 5 false) 3] paddedStream
        [97, 98, 99]
      ∧ Body.content ⟨.memory paddedStream, .deflate⟩ (Disk.ofDirectories [] [])
          = .error (.coding (.deflate .corrupt)) :=
  ⟨paddedStream_isDeflate, by decide +kernel⟩

end Body

end Wiretap
