/-
  Wiretap.Proofs.Utf8
  ───────────────────
  **WHAT IS WRITTEN IN UTF-8 IS READ BACK.**

  The reader takes a byte string apart piece by piece, and the encoding of a character is one
  piece (`piece_encodeChar`), so a text is read back from its encoding whatever it holds
  (`decode?_encode`).  ASCII stands for itself on both sides: a byte below 128 in an encoding
  is a character of the text (`char_mem_of_encode`), and an ASCII character of a text that was
  decoded, even by force, is a byte that was there (`byte_mem_of_decodeLossy`).
-/
import Mathlib.Algebra.GroupWithZero.Nat
import Wiretap.Text.Utf8

namespace Wiretap.Utf8

/-! ## §1. One character. -/

/-- What may follow the first byte of a character. -/
theorem leadShape_eq (b : UInt8) :
    leadShape b =
      if b.toNat < 0x80 then some (0, 0x80, 0xBF)
      else if b.toNat < 0xC2 then none
      else if b.toNat < 0xE0 then some (1, 0x80, 0xBF)
      else if b.toNat = 0xE0 then some (2, 0xA0, 0xBF)
      else if b.toNat = 0xED then some (2, 0x80, 0x9F)
      else if b.toNat < 0xF0 then some (2, 0x80, 0xBF)
      else if b.toNat = 0xF0 then some (3, 0x90, 0xBF)
      else if b.toNat < 0xF4 then some (3, 0x80, 0xBF)
      else if b.toNat = 0xF4 then some (3, 0x80, 0x8F)
      else none := by
  unfold leadShape
  simp only [UInt8.lt_iff_toNat_lt, beq_iff_eq, ← UInt8.toNat_inj]
  rfl

/-- A byte that fits is read onto the code. -/
theorem continueChar_cons {code n : Nat} {lo hi b : UInt8} (hlo : lo.toNat ≤ b.toNat)
    (hhi : b.toNat ≤ hi.toNat) (rest : Bytes) :
    continueChar code (n + 1) lo hi (b :: rest)
      = continueChar (code * 64 + b.toNat % 64) n 0x80 0xBF rest := by
  have hfits : (decide (lo ≤ b) && decide (b ≤ hi)) = true := by
    simp only [UInt8.le_iff_toNat_le, Bool.and_eq_true, decide_eq_true_eq]
    exact ⟨hlo, hhi⟩
  simp only [continueChar, hfits, if_true]

/-- The byte of a number that fits. -/
theorem toNat_byte {n : Nat} (h : n < 256) : (UInt8.ofNat n).toNat = n :=
  UInt8.toNat_ofNat_of_lt' h

theorem piece_one {v : Nat} (h : v < 0x80) (rest : Bytes) :
    piece (UInt8.ofNat v) rest = (some (Char.ofNat v), rest) := by
  have hb := toNat_byte (n := v) (by omega)
  unfold piece
  rw [leadShape_eq, if_pos (by omega)]
  simp only [leadBits, hb, continueChar]

theorem piece_two {v : Nat} (h : 0x80 ≤ v) (h' : v < 0x800) (rest : Bytes) :
    piece (UInt8.ofNat (v / 64 % 32 + 192)) (UInt8.ofNat (v % 64 + 128) :: rest)
      = (some (Char.ofNat v), rest) := by
  have hb := toNat_byte (n := v / 64 % 32 + 192) (by omega)
  have hb₁ := toNat_byte (n := v % 64 + 128) (by omega)
  unfold piece
  rw [leadShape_eq, hb, if_neg (by omega), if_neg (by omega), if_pos (by omega)]
  simp only [leadBits]
  rw [continueChar_cons (by rw [hb₁]; show 128 ≤ _; omega) (by rw [hb₁]; show _ ≤ 191; omega), hb,
    hb₁, continueChar]
  congr 3
  omega

theorem piece_three {v : Nat} (h : 0x800 ≤ v) (h' : v < 0x10000)
    (hvalid : v < 0xD800 ∨ 0xDFFF < v) (rest : Bytes) :
    piece (UInt8.ofNat (v / 4096 % 16 + 224))
        (UInt8.ofNat (v / 64 % 64 + 128) :: UInt8.ofNat (v % 64 + 128) :: rest)
      = (some (Char.ofNat v), rest) := by
  have hb := toNat_byte (n := v / 4096 % 16 + 224) (by omega)
  have hb₁ := toNat_byte (n := v / 64 % 64 + 128) (by omega)
  have hb₂ := toNat_byte (n := v % 64 + 128) (by omega)
  -- the second byte lies in the range that the first one asks for
  have hshape : ∃ lo hi : UInt8, leadShape (UInt8.ofNat (v / 4096 % 16 + 224)) = some (2, lo, hi)
      ∧ lo.toNat ≤ v / 64 % 64 + 128 ∧ v / 64 % 64 + 128 ≤ hi.toNat := by
    rw [leadShape_eq, hb, if_neg (by omega), if_neg (by omega), if_neg (by omega)]
    split
    next hlead => exact ⟨0xA0, 0xBF, rfl, by show 160 ≤ _; omega, by show _ ≤ 191; omega⟩
    next hlead =>
      split
      next hlead' => exact ⟨0x80, 0x9F, rfl, by show 128 ≤ _; omega, by show _ ≤ 159; omega⟩
      next hlead' =>
        rw [if_pos (by omega)]
        exact ⟨0x80, 0xBF, rfl, by show 128 ≤ _; omega, by show _ ≤ 191; omega⟩
  obtain ⟨lo, hi, hshape, hlo, hhi⟩ := hshape
  unfold piece
  rw [hshape]
  simp only [leadBits]
  rw [continueChar_cons (by rw [hb₁]; exact hlo) (by rw [hb₁]; exact hhi),
    continueChar_cons (by rw [hb₂]; show 128 ≤ _; omega) (by rw [hb₂]; show _ ≤ 191; omega), hb,
    hb₁, hb₂, continueChar]
  congr 3
  omega

theorem piece_four {v : Nat} (h : 0x10000 ≤ v) (h' : v < 0x110000) (rest : Bytes) :
    piece (UInt8.ofNat (v / 262144 % 8 + 240))
        (UInt8.ofNat (v / 4096 % 64 + 128) :: UInt8.ofNat (v / 64 % 64 + 128)
          :: UInt8.ofNat (v % 64 + 128) :: rest)
      = (some (Char.ofNat v), rest) := by
  have hb := toNat_byte (n := v / 262144 % 8 + 240) (by omega)
  have hb₁ := toNat_byte (n := v / 4096 % 64 + 128) (by omega)
  have hb₂ := toNat_byte (n := v / 64 % 64 + 128) (by omega)
  have hb₃ := toNat_byte (n := v % 64 + 128) (by omega)
  have hshape : ∃ lo hi : UInt8, leadShape (UInt8.ofNat (v / 262144 % 8 + 240)) = some (3, lo, hi)
      ∧ lo.toNat ≤ v / 4096 % 64 + 128 ∧ v / 4096 % 64 + 128 ≤ hi.toNat := by
    rw [leadShape_eq, hb, if_neg (by omega), if_neg (by omega), if_neg (by omega),
      if_neg (by omega), if_neg (by omega), if_neg (by omega)]
    split
    next hlead => exact ⟨0x90, 0xBF, rfl, by show 144 ≤ _; omega, by show _ ≤ 191; omega⟩
    next hlead =>
      split
      next hlead' => exact ⟨0x80, 0xBF, rfl, by show 128 ≤ _; omega, by show _ ≤ 191; omega⟩
      next hlead' =>
        rw [if_pos (by omega)]
        exact ⟨0x80, 0x8F, rfl, by show 128 ≤ _; omega, by show _ ≤ 143; omega⟩
  obtain ⟨lo, hi, hshape, hlo, hhi⟩ := hshape
  unfold piece
  rw [hshape]
  simp only [leadBits]
  rw [continueChar_cons (by rw [hb₁]; exact hlo) (by rw [hb₁]; exact hhi),
    continueChar_cons (by rw [hb₂]; show 128 ≤ _; omega) (by rw [hb₂]; show _ ≤ 191; omega),
    continueChar_cons (by rw [hb₃]; show 128 ≤ _; omega) (by rw [hb₃]; show _ ≤ 191; omega), hb,
    hb₁, hb₂, hb₃, continueChar]
  congr 3
  omega

/-- **The encoding of a character is one piece**, whatever stands behind it. -/
theorem piece_encodeChar (c : Char) (rest : Bytes) :
    ∃ first tail, String.utf8EncodeChar c = first :: tail
      ∧ piece first (tail ++ rest) = (some c, rest) := by
  have hvalid : c.val.toNat < 0xD800 ∨ 0xDFFF < c.val.toNat ∧ c.val.toNat < 0x110000 := c.valid
  have hc : Char.ofNat c.val.toNat = c := Char.ofNat_toNat c
  unfold String.utf8EncodeChar
  dsimp only
  split
  next hone => exact ⟨_, _, rfl, (piece_one (by omega) rest).trans (by rw [hc])⟩
  next hone =>
    split
    next htwo => exact ⟨_, _, rfl, (piece_two (by omega) (by omega) rest).trans (by rw [hc])⟩
    next htwo =>
      split
      next hthree =>
        exact ⟨_, _, rfl, (piece_three (by omega) (by omega) (by omega) rest).trans (by rw [hc])⟩
      next hthree =>
        exact ⟨_, _, rfl, (piece_four (by omega) (by omega) rest).trans (by rw [hc])⟩

/-! ## §2. Texts. -/

theorem pieces_go (done : List (Option Char)) (bytes : Bytes) :
    pieces.go done bytes = done.reverse ++ pieces bytes := by
  unfold pieces
  -- by induction on how many bytes there are, since a piece takes several of them
  induction hn : bytes.length using Nat.strongRecOn generalizing done bytes with
  | ind n ih =>
      cases bytes with
      | nil => rw [pieces.go, pieces.go, List.reverse_nil, List.append_nil]
      | cons first rest =>
          have hless : (piece first rest).2.length < n := by
            have hrest := piece_length first rest
            rw [List.length_cons] at hn
            omega
          rw [pieces.go, pieces.go, ih _ hless _ _ rfl, ih _ hless [_] _ rfl, List.reverse_cons,
            List.append_assoc]
          rfl

theorem pieces_cons (first : UInt8) (rest : Bytes) :
    pieces (first :: rest) = (piece first rest).1 :: pieces (piece first rest).2 := by
  rw [pieces, pieces.go, pieces_go]
  rfl

theorem encode_append (s t : String) : encode (s ++ t) = encode s ++ encode t := by
  simp [encode]

/-- The pieces of an encoding are the characters. -/
theorem pieces_encodeChars (chars : List Char) (rest : Bytes) :
    pieces (chars.flatMap String.utf8EncodeChar ++ rest) = chars.map some ++ pieces rest := by
  induction chars with
  | nil => rfl
  | cons c chars ih =>
      obtain ⟨first, tail, hc, hpiece⟩ := piece_encodeChar c
        (chars.flatMap String.utf8EncodeChar ++ rest)
      rw [List.flatMap_cons, List.append_assoc, hc, List.cons_append, pieces_cons, hpiece, ih]
      rfl

theorem pieces_nil : pieces [] = [] := by
  rw [pieces, pieces.go]
  rfl

/-- What is read back one by one is read back as a whole. -/
theorem mapM_eq_some {α β : Type} {f : β → Option α} {g : α → β} {l : List α}
    (h : ∀ x ∈ l, f (g x) = some x) : (l.map g).mapM f = some l := by
  induction l with
  | nil => rfl
  | cons x l ih =>
      rw [List.map_cons, List.mapM_cons, h x List.mem_cons_self,
        ih fun y hy => h y (List.mem_cons_of_mem _ hy)]
      rfl

/-- **A text is read back from its encoding.** -/
theorem decode?_encode (s : String) : decode? (encode s) = some s := by
  have hpieces := pieces_encodeChars s.toList []
  rw [List.append_nil, pieces_nil, List.append_nil] at hpieces
  unfold decode? encode
  have hall : (s.toList.map some).mapM id = some s.toList := mapM_eq_some fun _ _ => rfl
  rw [hpieces, hall]
  exact congrArg some String.ofList_toList

/-- Forgiving or not, a text is read back from its encoding. -/
theorem decodeLossy_encode (s : String) : decodeLossy (encode s) = s := by
  have hpieces := pieces_encodeChars s.toList []
  rw [List.append_nil, pieces_nil, List.append_nil] at hpieces
  unfold decodeLossy encode
  rw [hpieces, List.map_map]
  exact (congrArg String.ofList (List.map_id s.toList)).trans String.ofList_toList

/-! ## §3. ASCII stands for itself. -/

/-- The encoding of a character is the character itself, or its bytes have their top bit set. -/
theorem eq_or_le_of_mem_encodeChar {c : Char} {b : UInt8} (h : b ∈ String.utf8EncodeChar c) :
    b.toNat = c.toNat ∨ 0x80 ≤ b.toNat := by
  have hvalid : c.val.toNat < 0xD800 ∨ 0xDFFF < c.val.toNat ∧ c.val.toNat < 0x110000 := c.valid
  unfold String.utf8EncodeChar at h
  dsimp only at h
  split at h
  next hone =>
    obtain rfl := List.mem_singleton.mp h
    exact Or.inl (toNat_byte (by omega))
  next hone =>
    refine Or.inr ?_
    split at h
    next =>
      simp only [List.mem_cons, List.not_mem_nil, or_false] at h
      rcases h with rfl | rfl <;> rw [toNat_byte (by omega)] <;> omega
    next =>
      split at h
      next =>
        simp only [List.mem_cons, List.not_mem_nil, or_false] at h
        rcases h with rfl | rfl | rfl <;> rw [toNat_byte (by omega)] <;> omega
      next =>
        simp only [List.mem_cons, List.not_mem_nil, or_false] at h
        rcases h with rfl | rfl | rfl | rfl <;> rw [toNat_byte (by omega)] <;> omega

/-- A byte below 128 in an encoding is a character of the text. -/
theorem char_mem_of_encode {s : String} {b : UInt8} (h : b ∈ encode s) (hlow : b.toNat < 0x80) :
    Char.ofNat b.toNat ∈ s.toList := by
  obtain ⟨c, hmem, hb⟩ := List.mem_flatMap.mp h
  rcases eq_or_le_of_mem_encodeChar hb with heq | hhigh
  · rwa [heq, Char.ofNat_toNat]
  · omega

/-- The code of a character is at least what its bits so far stand for. -/
theorem le_of_continueChar {following code : Nat} {lo hi : UInt8} {bytes rest : Bytes} {c : Char}
    (h : continueChar code following lo hi bytes = (some c, rest)) :
    ∃ v, c = Char.ofNat v ∧ code * 64 ^ following ≤ v := by
  induction following generalizing code lo hi bytes with
  | zero =>
      simp only [continueChar, Prod.mk.injEq, Option.some.injEq] at h
      exact ⟨code, h.1.symm, by omega⟩
  | succ n ih =>
      cases bytes with
      | nil => cases h
      | cons b bytes =>
          simp only [continueChar] at h
          split at h
          next =>
            obtain ⟨v, hc, hv⟩ := ih h
            refine ⟨v, hc, Nat.le_trans ?_ hv⟩
            rw [Nat.pow_succ', ← Nat.mul_assoc]
            exact Nat.mul_le_mul_right _ (Nat.le_add_right _ _)
          next => cases h

/-- The range of the second byte counts as well. -/
theorem le_of_continueChar_succ {n code : Nat} {lo hi : UInt8} {bytes rest : Bytes} {c : Char}
    (h : continueChar code (n + 1) lo hi bytes = (some c, rest)) (hlo : 0x80 ≤ lo.toNat)
    (hhi : hi.toNat ≤ 0xBF) :
    ∃ v, c = Char.ofNat v ∧ (code * 64 + (lo.toNat - 0x80)) * 64 ^ n ≤ v := by
  cases bytes with
  | nil => cases h
  | cons b bytes =>
      simp only [continueChar, UInt8.le_iff_toNat_le, Bool.and_eq_true, decide_eq_true_eq] at h
      split at h
      next hfits =>
        obtain ⟨v, hc, hv⟩ := le_of_continueChar h
        exact ⟨v, hc, Nat.le_trans (Nat.mul_le_mul_right _ (by omega)) hv⟩
      next => cases h

/-- Where more bytes follow the first one, the code is no ASCII character. -/
theorem leadShape_long {b lo hi : UInt8} {n : Nat} (h : leadShape b = some (n + 1, lo, hi)) :
    0x80 ≤ lo.toNat ∧ hi.toNat ≤ 0xBF
      ∧ 0x80 ≤ (leadBits (n + 1) b * 64 + (lo.toNat - 0x80)) * 64 ^ n := by
  rw [leadShape_eq] at h
  -- one case for each range of first bytes
  repeat' split at h
  all_goals cases h
  all_goals
    refine ⟨by decide, by decide, ?_⟩
    simp [leadBits]
    omega

/-- An ASCII character, other than NUL, is a piece of one byte. -/
theorem first_of_piece {first : UInt8} {rest tail : Bytes} {c : Char}
    (h : piece first rest = (some c, tail)) (hlow : c.toNat < 0x80) (hne : c ≠ '\x00') :
    first.toNat = c.toNat := by
  unfold piece at h
  split at h
  next hshape => cases h
  next following lo hi hshape =>
    cases following with
    | zero =>
        have hone : first.toNat < 0x80 := by
          rw [leadShape_eq] at hshape
          split at hshape
          next hone => exact hone
          next =>
            repeat' split at hshape
            all_goals cases hshape
        have hvalid : first.toNat.isValidChar := Or.inl (by omega)
        simp only [continueChar, leadBits, Prod.mk.injEq, Option.some.injEq] at h
        rw [← h.1, Char.ofNat, dif_pos hvalid]
        rfl
    | succ n =>
        -- the code is too large for an ASCII character, and then NUL stands for no code
        obtain ⟨hlo, hhi, hcode⟩ := leadShape_long hshape
        obtain ⟨v, rfl, hv⟩ := le_of_continueChar_succ h hlo hhi
        exfalso
        by_cases hvalid : v.isValidChar
        · rw [Char.ofNat, dif_pos hvalid] at hlow
          have hv' : v < 0x80 := hlow
          omega
        · rw [Char.ofNat, dif_neg hvalid] at hne
          exact hne rfl

/-- What a piece leaves behind stood behind it. -/
theorem continueChar_suffix (following code : Nat) (lo hi : UInt8) (bytes : Bytes) :
    (continueChar code following lo hi bytes).2 <:+ bytes := by
  induction following generalizing code lo hi bytes with
  | zero => exact List.suffix_rfl
  | succ n ih =>
      cases bytes with
      | nil => exact List.suffix_rfl
      | cons b bytes =>
          simp only [continueChar]
          split
          next => exact (ih ..).trans (List.suffix_cons b bytes)
          next => exact List.suffix_rfl

theorem piece_suffix (first : UInt8) (rest : Bytes) : (piece first rest).2 <:+ rest := by
  unfold piece
  split
  next => exact List.suffix_rfl
  next => exact continueChar_suffix ..

/-- An ASCII character of a text that was decoded, even by force, other than NUL, is a byte
that was there. -/
theorem byte_mem_of_decodeLossy {bytes : Bytes} {c : Char} (h : c ∈ (decodeLossy bytes).toList)
    (hlow : c.toNat < 0x80) (hne : c ≠ '\x00') : ∃ b ∈ bytes, b.toNat = c.toNat := by
  unfold decodeLossy at h
  rw [String.toList_ofList] at h
  induction hn : bytes.length using Nat.strongRecOn generalizing bytes with
  | ind n ih =>
      cases bytes with
      | nil =>
          rw [pieces_nil] at h
          cases h
      | cons first rest =>
          have hsuffix := piece_suffix first rest
          rw [pieces_cons, List.map_cons, List.mem_cons] at h
          rcases h with hfirst | hrest
          · cases hpiece : (piece first rest).1 with
            | none =>
                -- the replacement character is not ASCII
                rw [hpiece] at hfirst
                rw [hfirst] at hlow
                exact absurd hlow (by decide)
            | some c' =>
                rw [hpiece] at hfirst
                obtain rfl : c = c' := hfirst
                exact ⟨first, List.mem_cons_self, first_of_piece (Prod.ext hpiece rfl) hlow hne⟩
          · have hless : (piece first rest).2.length < n := by
              have hlength := hsuffix.length_le
              rw [List.length_cons] at hn
              omega
            obtain ⟨b, hmem, hb⟩ := ih _ hless hrest rfl
            exact ⟨b, List.mem_cons_of_mem _ (hsuffix.subset hmem), hb⟩

end Wiretap.Utf8
