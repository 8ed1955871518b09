/-
  Wiretap.Proofs.Wrappings
  ────────────────────────
  **A COMPRESSED BODY COMES OUT WHOLE OR NOT AT ALL.**

  A gzip member and a zlib stream are a deflate stream with a header in front and checks of the
  payload behind.  A captured body that is coded so gives its payload, also when other bytes
  follow, and where it was cut off or its checks do not fit, a fault.  It is never taken for a
  shorter one:

    • `Wrapping.decode_checked`     — what the decoder makes of a stream with any checks,
    • `Wrapping.decode_part`        — a stream that is cut anywhere ends too early,
    • `wrapped_body_whole_or_fault` — the bodies of captures, however they were written.
-/
import Wiretap.Proofs.Inflating
import Wiretap.Proofs.Snapshots

namespace Wiretap

/-! ## §1. Checks. -/

namespace Bytes

/-- Four bytes stand for a number just when they are those of the number. -/
theorem littleEndian_eq_iff {bytes : Bytes} {n : Nat} (hlength : bytes.length = 4)
    (h : n < UInt32.size) : littleEndian bytes = n ↔ bytes = ofNumber 4 n := by
  have hfour : UInt32.size = Nat.pow 256 4 := by decide
  rw [hfour] at h
  constructor
  · intro hvalue
    rw [← hvalue, ← hlength, ofNumber_littleEndian]
  · intro hbytes
    rw [hbytes, littleEndian_ofNumber h]

end Bytes

namespace Coding

/-- The two sums of a byte string stay below their modulus. -/
theorem adlerByte_foldl_lt (bytes : Bytes) {s : Nat × Nat} (hplain : s.1 < adlerModulus)
    (hsum : s.2 < adlerModulus) :
    (bytes.foldl adlerByte s).1 < adlerModulus ∧ (bytes.foldl adlerByte s).2 < adlerModulus := by
  induction bytes generalizing s with
  | nil => exact ⟨hplain, hsum⟩
  | cons b rest ih => exact ih (Nat.mod_lt _ (by decide)) (Nat.mod_lt _ (by decide))

theorem adler32_lt (bytes : Bytes) : adler32 bytes < UInt32.size := by
  obtain ⟨hplain, hsum⟩ := adlerByte_foldl_lt bytes (s := (1, 0)) (by decide) (by decide)
  show (bytes.foldl adlerByte (1, 0)).2 * 65536 + (bytes.foldl adlerByte (1, 0)).1 < 4294967296
  simp only [adlerModulus] at hplain hsum
  omega

/-! ## §2. Wrappings. -/

/-- The header of a gzip member without optional fields. -/
structure GzipHeader where
  /-- The time, the effort and the system. -/
  details : Bytes
  length_details : details.length = 6

/-- The header of a zlib stream. -/
structure ZlibHeader where
  method : UInt8
  flags : UInt8
  isDeflate : method.toNat % 16 = 8
  smallWindow : method.toNat / 16 ≤ 7
  fits : (method.toNat * 256 + flags.toNat) % 31 = 0
  noDictionary : flags.toNat / 32 % 2 = 0

/-- What a deflate stream is wrapped in. -/
inductive Wrapping
  | gzip (header : GzipHeader)
  | zlib (header : ZlibHeader)

namespace Wrapping

/-- The name of the content coding. -/
def name : Wrapping → String
  | .gzip _ => "gzip"
  | .zlib _ => "deflate"

def header : Wrapping → Bytes
  | .gzip h => [0x1F, 0x8B, 8, 0] ++ h.details
  | .zlib h => [h.method, h.flags]

/-- The checks of a payload: its cyclic redundancy check and its length, or its Adler sum with
the highest byte first. -/
def checks (payload : Bytes) : Wrapping → Bytes
  | .gzip _ => Bytes.ofNumber 4 (crc32 payload).toNat
      ++ Bytes.ofNumber 4 (payload.length % UInt32.size)
  | .zlib _ => (Bytes.ofNumber 4 (adler32 payload)).reverse

/-- A wrapped deflate stream. -/
def wrap (w : Wrapping) (deflated checks : Bytes) : Bytes := w.header ++ (deflated ++ checks)

/-- The coding that the name stands for. -/
def coding : Wrapping → ContentCoding
  | .gzip _ => .gzip
  | .zlib _ => .deflate

theorem ofHeader_name (w : Wrapping) : ContentCoding.ofHeader (some w.name) = w.coding := by
  have hgzip : ContentCoding.ofHeader (some "gzip") = .gzip := by decide +kernel
  have hdeflate : ContentCoding.ofHeader (some "deflate") = .deflate := by decide +kernel
  cases w with
  | gzip => exact hgzip
  | zlib => exact hdeflate

/-- The fault that wrong checks are. -/
def mismatch : Wrapping → DecodeFault
  | .gzip _ => .gzipChecksum
  | .zlib _ => .deflate .corrupt

end Wrapping

/-- A fault that tells that the bytes end too early. -/
def DecodeFault.IsEarlyEnd (fault : DecodeFault) : Prop :=
  fault = .deflate .incomplete ∨ fault = .gzipIncomplete

/-! ## §3. Gzip. -/

variable {layouts : List Layout} {deflated payload checks part : Bytes}

theorem skipGzipHeader_append (header : GzipHeader) (rest : Bytes) :
    skipGzipHeader ((Wrapping.gzip header).header ++ rest) = .ok rest := by
  obtain ⟨details, hlength⟩ := header
  match details, hlength with
  | [_, _, _, _, _, _], _ => rfl

theorem length_gzipHeader (header : GzipHeader) : (Wrapping.gzip header).header.length = 10 := by
  rw [Wrapping.header, List.length_append, header.length_details]
  rfl

/-- A header that is cut. -/
theorem skipGzipHeader_short (h : part.length < 10) :
    skipGzipHeader part = .error .gzipIncomplete := by
  unfold skipGzipHeader
  split
  · simp only [List.length_cons] at h
    omega
  · rfl

/-- What is made of a payload by the eight bytes behind the deflate stream of a gzip member. -/
def gzipEnd (payload : Bytes) : Bytes → Decoded
  | a :: b :: c :: d :: e :: f :: g :: k :: _ =>
    if Bytes.littleEndian [a, b, c, d] = (crc32 payload).toNat
        && Bytes.littleEndian [e, f, g, k] = payload.length % UInt32.size then ⟨payload, none⟩
    else ⟨payload, some .gzipChecksum⟩
  | _ => ⟨payload, some .gzipIncomplete⟩

theorem gzipEnd_short (payload : Bytes) (h : part.length < 8) :
    gzipEnd payload part = ⟨payload, some .gzipIncomplete⟩ := by
  unfold gzipEnd
  split
  · simp only [List.length_cons] at h
    omega
  · rfl

theorem decodeGzip_append (header : GzipHeader) (h : IsDeflate layouts deflated payload)
    (behind : Bytes) :
    decodeGzip ((Wrapping.gzip header).header ++ (deflated ++ behind))
      = gzipEnd payload behind := by
  obtain ⟨i, hread, hbehind⟩ := inflate_append h behind
  simp only [decodeGzip, skipGzipHeader_append, hread, hbehind]
  rfl

/-- A gzip member with any checks of the right length. -/
theorem decodeGzip_checked (header : GzipHeader) (h : IsDeflate layouts deflated payload)
    (hlength : checks.length = 8) (tail : Bytes) :
    decodeGzip ((Wrapping.gzip header).header ++ (deflated ++ (checks ++ tail)))
      = ⟨payload, if checks = (Wrapping.gzip header).checks payload then none
          else some .gzipChecksum⟩ := by
  rw [decodeGzip_append header h]
  match checks, hlength with
  | [a, b, c, d, e, f, g, k], _ =>
      have hcrc : Bytes.littleEndian [a, b, c, d] = (crc32 payload).toNat
          ↔ [a, b, c, d] = Bytes.ofNumber 4 (crc32 payload).toNat :=
        Bytes.littleEndian_eq_iff rfl (crc32 payload).toNat_lt_size
      have hsize : Bytes.littleEndian [e, f, g, k] = payload.length % UInt32.size
          ↔ [e, f, g, k] = Bytes.ofNumber 4 (payload.length % UInt32.size) :=
        Bytes.littleEndian_eq_iff rfl (Nat.mod_lt _ (by decide))
      have hboth : [a, b, c, d, e, f, g, k] = (Wrapping.gzip header).checks payload
          ↔ Bytes.littleEndian [a, b, c, d] = (crc32 payload).toNat
            ∧ Bytes.littleEndian [e, f, g, k] = payload.length % UInt32.size := by
        rw [hcrc, hsize]
        exact ⟨fun hall => List.append_inj hall rfl, fun ⟨hfirst, hsecond⟩ => by
          rw [Wrapping.checks, ← hfirst, ← hsecond]; rfl⟩
      simp only [gzipEnd, List.cons_append, hboth, Bool.and_eq_true, decide_eq_true_eq]
      split <;> rfl

/-- A gzip member that is cut: in its header, in the deflate stream, or in its checks. -/
theorem decodeGzip_part (header : GzipHeader) (h : IsDeflate layouts deflated payload)
    (hlength : checks.length = 8)
    (hpart : part <+: (Wrapping.gzip header).wrap deflated checks)
    (hne : part ≠ (Wrapping.gzip header).wrap deflated checks) :
    ∃ fault, (decodeGzip part).fault = some fault ∧ fault.IsEarlyEnd := by
  rcases part_append hpart hne with ⟨hcut, hcutNe⟩ | ⟨rest, rfl, hrest, hrestNe⟩
  · have hshort := length_lt_of_part hcut hcutNe
    rw [length_gzipHeader] at hshort
    refine ⟨.gzipIncomplete, ?_, Or.inr rfl⟩
    simp only [decodeGzip, skipGzipHeader_short hshort, Decoded.failed]
  · rcases part_append hrest hrestNe with ⟨hcut, hcutNe⟩ | ⟨rest, rfl, hcut, hcutNe⟩
    · refine ⟨.deflate .incomplete, ?_, Or.inl rfl⟩
      simp only [decodeGzip, skipGzipHeader_append, inflate_part h hcut hcutNe]
    · have hshort := length_lt_of_part hcut hcutNe
      rw [hlength] at hshort
      refine ⟨.gzipIncomplete, ?_, Or.inr rfl⟩
      rw [decodeGzip_append header h, gzipEnd_short payload hshort]

/-! ## §4. Zlib. -/

theorem looksLikeZlib_append (header : ZlibHeader) (rest : Bytes) :
    looksLikeZlib ((Wrapping.zlib header).header ++ rest) = true := by
  simp only [Wrapping.header, List.cons_append, looksLikeZlib, header.isDeflate, header.fits,
    beq_self_eq_true, Bool.and_self]

theorem decodeZlib_header (header : ZlibHeader) (rest : Bytes) :
    decodeZlib ((Wrapping.zlib header).header ++ rest) = decodeZlibBody rest := by
  have haccepts : acceptsZlibHeader header.method header.flags = true := by
    simp only [acceptsZlibHeader, header.smallWindow, header.noDictionary, decide_true,
      beq_self_eq_true, Bool.and_self]
  simp only [Wrapping.header, List.cons_append, List.nil_append, decodeZlib, haccepts, if_true]

/-- What is made of a payload by the four bytes behind the deflate stream of a zlib stream. -/
def zlibEnd (payload : Bytes) : Bytes → Decoded
  | a :: b :: c :: d :: _ =>
    if Bytes.littleEndian [d, c, b, a] = adler32 payload then ⟨payload, none⟩
    else ⟨payload, some (.deflate .corrupt)⟩
  | _ => ⟨payload, some (.deflate .incomplete)⟩

theorem zlibEnd_short (payload : Bytes) (h : part.length < 4) :
    zlibEnd payload part = ⟨payload, some (.deflate .incomplete)⟩ := by
  unfold zlibEnd
  split
  · simp only [List.length_cons] at h
    omega
  · rfl

theorem decodeZlib_append (header : ZlibHeader) (h : IsDeflate layouts deflated payload)
    (behind : Bytes) :
    decodeZlib ((Wrapping.zlib header).header ++ (deflated ++ behind))
      = zlibEnd payload behind := by
  obtain ⟨i, hread, hbehind⟩ := inflate_append h behind
  simp only [decodeZlib_header, decodeZlibBody, hread, hbehind]
  rfl

/-- A zlib stream with any checks of the right length. -/
theorem decodeZlib_checked (header : ZlibHeader) (h : IsDeflate layouts deflated payload)
    (hlength : checks.length = 4) (tail : Bytes) :
    decodeZlib ((Wrapping.zlib header).header ++ (deflated ++ (checks ++ tail)))
      = ⟨payload, if checks = (Wrapping.zlib header).checks payload then none
          else some (.deflate .corrupt)⟩ := by
  rw [decodeZlib_append header h]
  match checks, hlength with
  | [a, b, c, d], _ =>
      have hsum : [a, b, c, d] = (Wrapping.zlib header).checks payload
          ↔ Bytes.littleEndian [d, c, b, a] = adler32 payload := by
        rw [Bytes.littleEndian_eq_iff rfl (adler32_lt payload), Wrapping.checks,
          ← List.reverse_eq_iff]
        rfl
      simp only [zlibEnd, List.cons_append, hsum]
      split <;> rfl

/-- The first byte of a zlib header alone begins a stored block, as a deflate stream. -/
theorem inflate_method (header : ZlibHeader) :
    (inflate [header.method]).finish = .error .incomplete := by
  have hlow : ∀ k, k < 3 → header.method.toNat.testBit k = false := by
    intro k hk
    have hmethod := header.isDeflate
    rw [Nat.testBit_eq_decide_div_mod_eq, decide_eq_false_iff_not]
    match k, hk with
    | 0, _ => omega
    | 1, _ => omega
    | 2, _ => omega
  have hbits : bitsOfBytes [header.method]
      = headBits false (.stored [] 0) ++ (bitsOf header.method).drop 3 := by
    simp only [bitsOfBytes, List.flatMap_cons, List.flatMap_nil, bitsOf, hlow 0 (by decide),
      hlow 1 (by decide), hlow 2 (by decide)]
    rfl
  obtain ⟨i, hread, hbehind⟩ := (readBlockHead_reads false (.stored [] 0)).whole
    (hbits ▸ BitInput.ofBytes_ahead [header.method])
  -- the other five bits fill up the byte, and then there is nothing
  have hrest : i.rest = [] := by
    have hlength := hbehind.length
    rw [List.length_drop, length_bitsOf] at hlength
    exact List.eq_nil_of_length_eq_zero (by omega)
  show (readBlocks 9 9 (.ofBytes [header.method]) #[]).finish = _
  simp only [readBlocks, hread, Layout.kind, readBlock, BitInput.aligned, hrest, readStored]

/-- A zlib stream that is cut: in its header, in the deflate stream, or in its checks. -/
theorem decodeDeflate_part (header : ZlibHeader) (h : IsDeflate layouts deflated payload)
    (hlength : checks.length = 4) (hsome : part ≠ [])
    (hpart : part <+: (Wrapping.zlib header).wrap deflated checks)
    (hne : part ≠ (Wrapping.zlib header).wrap deflated checks) :
    (decodeDeflate part).fault = some (.deflate .incomplete) := by
  rcases part_append hpart hne with ⟨hcut, hcutNe⟩ | ⟨rest, rfl, hrest, hrestNe⟩
  · -- only the first byte of the header is left, and no header can be seen
    obtain rfl : part = [header.method] := by
      rcases List.prefix_cons_iff.mp hcut with hnil | ⟨t, rfl, ht⟩
      · exact absurd hnil hsome
      · rcases List.prefix_cons_iff.mp ht with rfl | ⟨t', rfl, ht'⟩
        · rfl
        · rw [List.prefix_nil.mp ht'] at hcutNe
          exact absurd rfl hcutNe
    simp only [decodeDeflate, looksLikeZlib, decodeRaw, inflate_method, if_neg Bool.false_ne_true]
  · simp only [decodeDeflate, looksLikeZlib_append, if_true]
    rcases part_append hrest hrestNe with ⟨hcut, hcutNe⟩ | ⟨rest, rfl, hcut, hcutNe⟩
    · simp only [decodeZlib_header, decodeZlibBody, inflate_part h hcut hcutNe]
    · have hshort := length_lt_of_part hcut hcutNe
      rw [hlength] at hshort
      rw [decodeZlib_append header h, zlibEnd_short payload hshort]

/-! ## §5. Either wrapping. -/

namespace Wrapping

/-- **A wrapped stream is decoded, and its checks are looked at.**  Whatever follows them, the
payload comes out, with a fault unless the checks are those of the payload. -/
theorem decode_checked (w : Wrapping) (h : IsDeflate layouts deflated payload)
    (hlength : checks.length = (w.checks payload).length) (tail : Bytes) :
    w.coding.decoder.decode (w.wrap deflated (checks ++ tail))
      = ⟨payload, if checks = w.checks payload then none else some w.mismatch⟩ := by
  cases w with
  | gzip header => exact decodeGzip_checked header h hlength tail
  | zlib header =>
      show decodeDeflate _ = _
      rw [wrap, decodeDeflate, looksLikeZlib_append, if_pos rfl]
      exact decodeZlib_checked header h hlength tail

/-- **A wrapped stream that is cut ends too early**, wherever it was cut. -/
theorem decode_part (w : Wrapping) (h : IsDeflate layouts deflated payload) (hsome : part ≠ [])
    (hpart : part <+: w.wrap deflated (w.checks payload))
    (hne : part ≠ w.wrap deflated (w.checks payload)) :
    ∃ fault, (w.coding.decoder.decode part).fault = some fault ∧ fault.IsEarlyEnd := by
  cases w with
  | gzip header => exact decodeGzip_part header h rfl hpart hne
  | zlib header => exact ⟨_, decodeDeflate_part header h rfl hsome hpart hne, Or.inl rfl⟩

end Wrapping

/-! ## §6. Stored blocks. -/

/-- A payload cut into pieces that stored blocks can hold; some may be empty. -/
structure Split (payload : Bytes) where
  pieces : List Bytes
  ne_nil : pieces ≠ []
  small : ∀ piece ∈ pieces, piece.length ≤ maxStored
  flatten : pieces.flatten = payload

/-- The first byte of a stored block: whether it is the last one, and nothing else. -/
def storedHead (last : Bool) : UInt8 := if last then 1 else 0

/-- A stored block for each piece. -/
def storedBlocks : (pieces : List Bytes) → Bytes
  | [] => []
  | piece :: pieces => storedHead pieces.isEmpty :: (storedBytes piece ++ storedBlocks pieces)

/-- The layout of a stored block that begins with a whole byte. -/
def storedLayout (piece : Bytes) : Layout := .stored (List.replicate 5 false) piece.length

theorem bitsOf_storedHead (last : Bool) (piece : Bytes) :
    bitsOf (storedHead last) = headBits last (storedLayout piece) ++ List.replicate 5 false := by
  have hkind : numberBits 2 (storedLayout piece).kind = [false, false] := by
    show numberBits 2 0 = [false, false]
    decide
  rw [headBits, hkind]
  cases last with
  | true => decide
  | false => decide

/-- A stored block that begins with a whole byte, with any five bits behind its head. -/
theorem Block.ofPiece {padding : List Bool} (hlength : padding.length = 5) (piece : Bytes)
    (hpiece : piece.length ≤ maxStored) {position : Nat} (hposition : position % 8 = 0)
    (out : Bytes) :
    Block (position + 3) (.stored padding piece.length) (padding ++ bitsOfBytes (storedBytes piece))
      out (out ++ piece) :=
  .stored (by omega) (by omega) hpiece

/-- Stored blocks hold the pieces, by induction on these; each block fills whole bytes. -/
theorem storedBlocks_blocks {pieces : List Bytes} (hne : pieces ≠ [])
    (hsmall : ∀ piece ∈ pieces, piece.length ≤ maxStored) {position : Nat}
    (hposition : position % 8 = 0) (out : Bytes) :
    Blocks position (pieces.map storedLayout) (bitsOfBytes (storedBlocks pieces)) out
      (out ++ pieces.flatten) := by
  induction pieces generalizing position out with
  | nil => exact absurd rfl hne
  | cons piece pieces ih =>
      have hblock : Block (position + 3) (storedLayout piece)
          (List.replicate 5 false ++ bitsOfBytes (storedBytes piece)) out (out ++ piece) :=
        .ofPiece rfl piece (hsmall piece List.mem_cons_self) hposition out
      cases pieces with
      | nil =>
          rw [List.flatten_singleton, storedBlocks, storedBlocks, List.append_nil,
            bitsOfBytes_cons, bitsOf_storedHead _ piece, List.append_assoc]
          exact .last hblock
      | cons next pieces =>
          have hfull : (position + 3
              + (List.replicate 5 false ++ bitsOfBytes (storedBytes piece)).length) % 8 = 0 := by
            rw [List.length_append, List.length_replicate, length_bitsOfBytes]
            omega
          have hrest := ih (List.cons_ne_nil _ _)
            (fun later hlater => hsmall later (List.mem_cons_of_mem _ hlater)) hfull (out ++ piece)
          rw [List.append_assoc, ← List.flatten_cons] at hrest
          have hblocks := Blocks.more hblock hrest
          rw [List.append_assoc] at hblocks
          rw [storedBlocks, bitsOfBytes_cons, bitsOfBytes_append, bitsOf_storedHead _ piece,
            List.append_assoc]
          exact hblocks

/-- Stored blocks are a deflate stream of their payload. -/
theorem Split.isDeflate (split : Split payload) :
    IsDeflate (split.pieces.map storedLayout) (storedBlocks split.pieces) payload := by
  have hblocks := storedBlocks_blocks split.ne_nil split.small (Nat.zero_mod 8) []
  rw [List.nil_append, split.flatten] at hblocks
  exact ⟨_, [], (List.append_nil _).symm, by decide, hblocks⟩

end Coding

/-! ## §7. Captured bodies. -/

namespace Body

variable {b : Body} {disk : Disk} {coded bytes : Bytes} {fault : Coding.DecodeFault}

/-- The content is what the decoder gives without a fault. -/
theorem content_eq_ok_iff (hraw : b.raw disk = .ok coded) :
    b.content disk = .ok bytes ↔ b.coding.decoder.decode coded = ⟨bytes, none⟩ := by
  simp only [content, hraw, Coding.Decoder.all]
  cases b.coding.decoder.decode coded with
  | mk out fault =>
      cases fault with
      | none =>
          show Except.ok out = Except.ok bytes ↔ _
          rw [Except.ok.injEq, Coding.Decoded.mk.injEq]
          exact (and_iff_left rfl).symm
      | some fault =>
          refine iff_of_false (fun h => ?_) (fun h => ?_)
          · cases h
          · cases (Coding.Decoded.mk.inj h).2

theorem content_of_fault (hraw : b.raw disk = .ok coded)
    (h : (b.coding.decoder.decode coded).fault = some fault) :
    b.content disk = .error (.coding fault) := by
  simp only [content, hraw, Coding.Decoder.all, h]
  rfl

end Body

namespace Store

open Coding

variable {s : Store} {d : Direction} {id : ExchangeId} {calls : List Call} {chunks : List Bytes}

/-- Chunks that are written add up. -/
theorem foldl_apply_writes (hsafe : id.isPathSafe = true) (chunks : List Bytes) (held : Bytes) :
    (chunks.map (Call.write d id)).foldl (Call.apply d id) held = held ++ chunks.flatten := by
  induction chunks generalizing held with
  | nil => exact (List.append_nil held).symm
  | cons chunk chunks ih =>
      have hchunk : (Call.write d id chunk).apply d id held = held ++ chunk :=
        if_pos ⟨rfl, rfl, hsafe⟩
      rw [List.map_cons, List.foldl_cons, hchunk, ih, List.flatten_cons, List.append_assoc]

/-- The body of what was written in chunks, among any calls about other exchanges. -/
theorem get_of_writes (he : s.repository.enabled = true)
    (hempty : s.repository.buffers = .both ∅)
    (hreplies : ∀ reply ∈ (s.performAll calls).1, Undisturbed reply)
    (hsafe : id.isPathSafe = true)
    (hwrites : calls.filter (fun call => call.concerns d id) = chunks.map (Call.write d id))
    (hsome : chunks.flatten ≠ []) (coding : Option String) :
    ∃ body, (s.performAll calls).2.get d id coding = some body
      ∧ body.coding = ContentCoding.ofHeader coding ∧ body.size = chunks.flatten.length
      ∧ body.raw (s.performAll calls).2.disk = .ok chunks.flatten := by
  have hstart : ∀ d id, s.Keeps d id [] := fun d id =>
    keeps_nil (Repository.buffer?_of_empty hempty d id)
  obtain ⟨hkeeps, -, -, hon⟩ := performAll_keeps calls he hstart hreplies
  have hledger : ledgerOf calls d id = chunks.flatten := by
    rw [← ledgerOf_filter, hwrites, ledgerOf, foldl_apply_writes hsafe, List.nil_append]
  have hk : (s.performAll calls).2.Keeps d id chunks.flatten := hledger ▸ hkeeps d id
  obtain ⟨buffer, hb⟩ := Option.isSome_iff_exists.mp (hk.isSome_iff.mpr hsome)
  obtain ⟨hsize, hraw⟩ := (Later.now.grown (sound_of_keeps hkeeps) hon hk).raw hk hb
    (ContentCoding.ofHeader coding)
  refine ⟨bodyOf (ContentCoding.ofHeader coding) buffer, ?_, ?_, hsize, hraw⟩
  · rw [get, if_pos hon, hb]
    rfl
  · cases buffer <;> rfl

/-- **A compressed capture comes out whole or is a fault.**  A payload is cut into stored blocks
in any way and wrapped as a gzip member or a zlib stream, and bytes are written to the store in
any chunks, below or above any threshold.  If the bytes begin with the stream, the body has their
size and decodes to the payload; if the stream was cut anywhere, reading the body ends in a fault
that says so; and if its checks are not those of the payload, reading ends in a fault as well. -/
theorem wrapped_body_whole_or_fault (w : Wrapping) {payload : Bytes} (split : Split payload)
    (he : s.repository.enabled = true) (hempty : s.repository.buffers = .both ∅)
    (hreplies : ∀ reply ∈ (s.performAll calls).1, Undisturbed reply)
    (hsafe : id.isPathSafe = true)
    (hwrites : calls.filter (fun call => call.concerns d id) = chunks.map (Call.write d id))
    (hsome : chunks.flatten ≠ []) :
    ∃ body, (s.performAll calls).2.get d id (some w.name) = some body
      ∧ body.size = chunks.flatten.length
      ∧ (∀ tail, chunks.flatten = w.wrap (storedBlocks split.pieces) (w.checks payload ++ tail) →
          body.content (s.performAll calls).2.disk = .ok payload)
      ∧ (chunks.flatten <+: w.wrap (storedBlocks split.pieces) (w.checks payload) →
          chunks.flatten ≠ w.wrap (storedBlocks split.pieces) (w.checks payload) →
          ∃ fault, body.content (s.performAll calls).2.disk = .error (.coding fault)
            ∧ fault.IsEarlyEnd)
      ∧ (∀ checks tail, checks.length = (w.checks payload).length → checks ≠ w.checks payload →
          chunks.flatten = w.wrap (storedBlocks split.pieces) (checks ++ tail) →
          body.content (s.performAll calls).2.disk = .error (.coding w.mismatch)) := by
  obtain ⟨body, hget, hcoding, hsize, hraw⟩ :=
    get_of_writes he hempty hreplies hsafe hwrites hsome (some w.name)
  rw [w.ofHeader_name] at hcoding
  refine ⟨body, hget, hsize, ?_, ?_, ?_⟩
  · intro tail hwhole
    have hdecode := w.decode_checked split.isDeflate rfl tail
    rw [if_pos rfl, ← hwhole, ← hcoding] at hdecode
    exact (Body.content_eq_ok_iff hraw).mpr hdecode
  · intro hpart hne
    obtain ⟨fault, hfault, hearly⟩ := w.decode_part split.isDeflate hsome hpart hne
    rw [← hcoding] at hfault
    exact ⟨fault, Body.content_of_fault hraw hfault, hearly⟩
  · intro checks tail hlength hne hforged
    have hdecode := w.decode_checked split.isDeflate hlength tail
    rw [if_neg hne, ← hforged, ← hcoding] at hdecode
    exact Body.content_of_fault hraw (congrArg Decoded.fault hdecode)

/-- Three bytes in two pieces. -/
def twoPieces : Split [97, 98, 99] where
  pieces := [[97], [98, 99]]
  ne_nil := List.cons_ne_nil _ _
  small := by decide
  flatten := rfl

/-- A gzip member of the two pieces. -/
def twoPieceMember : Bytes :=
  [31, 139, 8, 0, 0, 0, 0, 0, 0, 255, 0, 1, 0, 254, 255, 97, 1, 2, 0, 253, 255, 98, 99,
    194, 65, 36, 53, 3, 0, 0, 0]

/-- Calls that write some bytes in two chunks, with another exchange between them. -/
def twoChunkCalls (written : Bytes) : List Call :=
  [.write .response ⟨"x"⟩ (written.take 12), .write .request ⟨"y"⟩ [7],
    .write .response ⟨"x"⟩ (written.drop 12)]

theorem twoChunkCalls_filter (written : Bytes) :
    (twoChunkCalls written).filter (fun call => call.concerns .response ⟨"x"⟩)
      = [written.take 12, written.drop 12].map (Call.write .response ⟨"x"⟩) := rfl

/-- These calls on a store with a threshold of four bytes. -/
def spilledMember (written : Bytes) : List (Except CaptureFailure Unit) × Store :=
  (⟨.ofDirectories [["b"]] [], ⟨true, .ofText "/b", 4, .both ∅⟩, .zero⟩ : Store).performAll
    (twoChunkCalls written)

/-- The same of a member with one more byte behind it, and of one that is cut in its second
block. -/
theorem wrapped_body_whole_or_fault_of_two :
    (∃ body, (spilledMember (twoPieceMember ++ [9])).2.get .response ⟨"x"⟩ (some "gzip") = some body
        ∧ body.size = 32
        ∧ body.content (spilledMember (twoPieceMember ++ [9])).2.disk = .ok [97, 98, 99])
      ∧ ∃ body fault,
        (spilledMember (twoPieceMember.take 20)).2.get .response ⟨"x"⟩ (some "gzip") = some body
          ∧ body.size = 20
          ∧ body.content (spilledMember (twoPieceMember.take 20)).2.disk = .error (.coding fault)
          ∧ fault.IsEarlyEnd := by
  let w : Wrapping := .gzip ⟨[0, 0, 0, 0, 0, 255], rfl⟩
  have hmember : w.wrap (storedBlocks twoPieces.pieces) (w.checks [97, 98, 99])
      = twoPieceMember := by decide +kernel
  have hwhole : ∀ reply ∈ (spilledMember (twoPieceMember ++ [9])).1, Undisturbed reply := by
    have hok : ∀ reply ∈ (spilledMember (twoPieceMember ++ [9])).1, reply = .ok () := by
      decide +kernel
    intro reply hmem failure herror
    rw [hok reply hmem] at herror
    cases herror
  have hcut : ∀ reply ∈ (spilledMember (twoPieceMember.take 20)).1, Undisturbed reply := by
    have hok : ∀ reply ∈ (spilledMember (twoPieceMember.take 20)).1, reply = .ok () := by
      decide +kernel
    intro reply hmem failure herror
    rw [hok reply hmem] at herror
    cases herror
  have hsafe : (⟨"x"⟩ : ExchangeId).isPathSafe = true := by decide +kernel
  constructor
  · obtain ⟨body, hget, hsize, hcontent, -⟩ := wrapped_body_whole_or_fault w twoPieces rfl rfl
      hwhole hsafe (twoChunkCalls_filter _) (by decide)
    refine ⟨body, hget, hsize, hcontent [9] ?_⟩
    rw [Wrapping.wrap, ← List.append_assoc _ _ [9], ← List.append_assoc _ _ [9]]
    exact congrArg (· ++ [9]) hmember.symm
  · obtain ⟨body, hget, hsize, -, hpart, -⟩ := wrapped_body_whole_or_fault w twoPieces rfl rfl
      hcut hsafe (twoChunkCalls_filter _) (by decide)
    rw [hmember] at hpart
    obtain ⟨fault, hfault, hearly⟩ := hpart (List.take_prefix 20 twoPieceMember) (by decide)
    exact ⟨body, fault, hget, hsize, hfault, hearly⟩

end Store

end Wiretap
