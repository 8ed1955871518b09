/-
  Wiretap.Proofs.Identifiers
  ──────────────────────────
  **IDENTIFIERS THAT ORDER THEMSELVES.**

  A generated identifier is made of small letters and digits, so it can be a file name and a
  directory as it is.  Its time stamp has as many digits as there are, zeros in front, and such
  digits compare as their numbers do.  So of identifiers with the same first characters the
  earlier one comes first:

    • `Text.readHex?_hexFixed`       — a number is read back from its digits,
    • `Text.lex_hexFixed`            — digits compare as numbers,
    • `ExchangeId.cutAtByte_front`   — the stamp is found where it was put,
    • `ExchangeId.generate_stamped`  — an identifier and two that are compared.
-/
import Mathlib.Data.List.Lex
import Wiretap.Proofs.Shards
import Wiretap.Proofs.Utf8

namespace Wiretap

/-! ## §1. Digits of numbers. -/

namespace Text

/-- The value of a lower-case hexadecimal digit. -/
def hexDigitValue? (c : Char) : Option Nat :=
  if '0' ≤ c ∧ c ≤ '9' then some (c.toNat - 48)
  else if 'a' ≤ c ∧ c ≤ 'f' then some (c.toNat - 87)
  else none

/-- The number that lower-case hexadecimal digits stand for. -/
def readHex? (digits : List Char) : Option Nat :=
  digits.foldlM (fun n c => (hexDigitValue? c).map (16 * n + ·)) 0

theorem length_hexFixed (width n : Nat) : (hexFixed width n).length = width := by
  induction width generalizing n with
  | zero => rfl
  | succ w ih => simp [hexFixed, ih]

/-- A property of the sixteen digits is one of every digit that is written. -/
theorem forall_hexFixed {P : Char → Prop} (h : ∀ v : Fin 16, P (hexDigit v)) (width n : Nat) :
    ∀ c ∈ hexFixed width n, P c := by
  induction width generalizing n with
  | zero => exact fun c hc => absurd hc List.not_mem_nil
  | succ w ih =>
      intro c hc
      rcases List.mem_append.mp hc with hfront | hlast
      · exact ih _ c hfront
      · rw [List.mem_singleton.mp hlast]
        exact h ⟨n % 16, Nat.mod_lt _ (by decide)⟩

theorem hexDigitValue?_hexDigit (v : Fin 16) : hexDigitValue? (hexDigit v) = some v.val := by
  revert v
  decide

/-- A number below the largest one of so many digits is read back from them. -/
theorem readHex?_hexFixed {width n : Nat} (h : n < Nat.pow 16 width) :
    readHex? (hexFixed width n) = some n := by
  induction width generalizing n with
  | zero => rw [Nat.lt_one_iff.mp h]; rfl
  | succ w ih =>
      have hfront : n / 16 < Nat.pow 16 w := Nat.div_lt_of_lt_mul (by rwa [Nat.mul_comm])
      have hlast := hexDigitValue?_hexDigit ⟨n % 16, Nat.mod_lt _ (by decide)⟩
      have hread := ih hfront
      unfold readHex? at hread ⊢
      simp only [hexFixed, List.foldlM_append, hread]
      simp [hlast, Nat.div_add_mod]

theorem hexDigit_lt : ∀ v v' : Fin 16, v < v' → hexDigit v < hexDigit v' := by decide

/-- What is behind texts of one length makes no difference where these differ. -/
theorem lex_append {α : Type} {r : α → α → Prop} {a b : List α} (h : List.Lex r a b)
    (hlength : a.length = b.length) (x y : List α) : List.Lex r (a ++ x) (b ++ y) := by
  induction h with
  | nil => cases hlength
  | rel hr => exact .rel hr
  | cons _ ih => exact .cons (ih (Nat.succ.inj hlength))

/-- **Digits compare as their numbers do.** -/
theorem lex_hexFixed {width m n : Nat} (hlt : m < n) (hn : n < Nat.pow 16 width) :
    List.Lex (· < ·) (hexFixed width m) (hexFixed width n) := by
  induction width generalizing m n with
  | zero => exact absurd (Nat.lt_one_iff.mp hn) (Nat.ne_of_gt (Nat.zero_lt_of_lt hlt))
  | succ w ih =>
      have hfront : n / 16 < Nat.pow 16 w := Nat.div_lt_of_lt_mul (by rwa [Nat.mul_comm])
      -- the first digits decide, or they are the same and the last one does
      rcases Nat.lt_or_ge (m / 16) (n / 16) with hbelow | hnot
      · exact lex_append (ih hbelow hfront) (by rw [length_hexFixed, length_hexFixed]) _ _
      · have hsame : m / 16 = n / 16 := by omega
        have hlast : hexDigit (m % 16) < hexDigit (n % 16) :=
          hexDigit_lt ⟨m % 16, Nat.mod_lt _ (by decide)⟩ ⟨n % 16, Nat.mod_lt _ (by decide)⟩
            (show m % 16 < n % 16 by omega)
        unfold hexFixed
        rw [hsame]
        exact List.Lex.append_left _ (.rel hlast) _

end Text

/-! ## §2. Bytes of ASCII. -/

namespace Utf8

/-- An ASCII character is one byte. -/
theorem encodeChar_of_ascii {c : Char} (h : c.toNat < 0x80) :
    String.utf8EncodeChar c = [UInt8.ofNat c.toNat] := by
  have hone : c.val.toNat ≤ 0x7f := Nat.le_of_lt_succ h
  unfold String.utf8EncodeChar
  dsimp only
  rw [if_pos hone]
  rfl

/-- The bytes of ASCII characters compare as these do. -/
theorem lex_encode {a b : List Char} (ha : ∀ c ∈ a, c.toNat < 0x80)
    (hb : ∀ c ∈ b, c.toNat < 0x80) (h : List.Lex (· < ·) a b) :
    List.Lex (· < ·) (encode (String.ofList a)) (encode (String.ofList b)) := by
  unfold encode
  rw [String.toList_ofList, String.toList_ofList]
  induction h with
  | nil =>
      rename_i c rest
      rw [List.flatMap_cons, encodeChar_of_ascii (hb c List.mem_cons_self)]
      exact .nil
  | cons hrest ih =>
      rename_i c rest rest'
      have hc := ha c List.mem_cons_self
      rw [List.flatMap_cons, List.flatMap_cons, encodeChar_of_ascii hc]
      exact .cons (ih (fun x hx => ha x (List.mem_cons_of_mem _ hx))
        fun x hx => hb x (List.mem_cons_of_mem _ hx))
  | rel hlt =>
      rename_i c rest c' rest'
      have hc := ha c List.mem_cons_self
      have hc' := hb c' List.mem_cons_self
      have hbyte : UInt8.ofNat c.toNat < UInt8.ofNat c'.toNat := by
        rw [UInt8.lt_iff_toNat_lt, toNat_byte (by omega), toNat_byte (by omega)]
        exact hlt
      rw [List.flatMap_cons, List.flatMap_cons, encodeChar_of_ascii hc, encodeChar_of_ascii hc']
      exact .rel hbyte

end Utf8

/-! ## §3. Generated identifiers. -/

namespace ExchangeId

variable {shard : Vector (Fin 62) shardLength} {suffix : Vector (Fin 62) suffixLength}
  {millis : Nat}

/-- A small letter or a digit. -/
def IsPlain (c : Char) : Prop := ('a' ≤ c ∧ c ≤ 'z') ∨ ('0' ≤ c ∧ c ≤ '9')

theorem drawn_plain : ∀ draw : Fin 62, IsPlain (drawn draw) := by
  unfold IsPlain
  decide +kernel

theorem hexDigit_plain : ∀ v : Fin 16, IsPlain (Text.hexDigit v) := by
  unfold IsPlain
  decide

theorem IsPlain.ascii {c : Char} (h : IsPlain c) : c.toNat < 0x80 := by
  rcases h with ⟨-, hz⟩ | ⟨-, hnine⟩
  · exact Nat.lt_of_le_of_lt (UInt32.le_iff_toNat_le.mp hz) (by decide)
  · exact Nat.lt_of_le_of_lt (UInt32.le_iff_toNat_le.mp hnine) (by decide)

theorem IsPlain.pathSafe {c : Char} (h : IsPlain c) : isPathSafeChar c = true := by
  have halphanum : c.isAlphanum = true := by
    rcases h with ⟨ha, hz⟩ | ⟨hzero, hnine⟩
    · have hlower : c.isLower = true :=
        Bool.and_eq_true_iff.mpr ⟨decide_eq_true ha, decide_eq_true hz⟩
      exact Bool.or_eq_true_iff.mpr (Or.inl (Bool.or_eq_true_iff.mpr (Or.inr hlower)))
    · have hdigit : c.isDigit = true :=
        Bool.and_eq_true_iff.mpr ⟨decide_eq_true hzero, decide_eq_true hnine⟩
      exact Bool.or_eq_true_iff.mpr (Or.inr hdigit)
  unfold isPathSafeChar Text.isAsciiAlphanumeric
  rw [halphanum]
  rfl

/-- What stands in front is cut off, where each of its characters is one byte. -/
theorem cutAtByte_front {front : List Char} (h : ∀ c ∈ front, IsPlain c)
    (back : List Char) : cutAtByte front.length (front ++ back) = some (front, back) := by
  induction front with
  | nil => rw [List.length_nil, List.nil_append, cutAtByte]
  | cons c front ih =>
      obtain ⟨hc, hfront⟩ := List.forall_mem_cons.mp h
      have hbyte : c.utf8Size = 1 := Char.utf8Size_eq_one_iff.mpr (Nat.le_of_lt_succ hc.ascii)
      rw [List.length_cons, List.cons_append, cutAtByte, hbyte, if_neg (by omega),
        Nat.add_sub_cancel, ih hfront]
      rfl

/-- The three parts of an identifier. -/
theorem toList_generate (h : millis < Nat.pow 16 stampLength) :
    (generate shard millis suffix).text.toList = shard.toList.map drawn
      ++ (Text.hexFixed stampLength millis ++ suffix.toList.map drawn) := by
  unfold generate Text.hexPadded
  rw [if_pos h, String.toList_ofList, List.append_assoc]

theorem generate_plain (h : millis < Nat.pow 16 stampLength) :
    ∀ c ∈ (generate shard millis suffix).text.toList, IsPlain c := by
  have hdrawn : ∀ draws : List (Fin 62), ∀ c ∈ draws.map drawn, IsPlain c := by
    intro draws c hc
    obtain ⟨draw, -, rfl⟩ := List.mem_map.mp hc
    exact drawn_plain draw
  intro c hc
  rw [toList_generate h] at hc
  rcases List.mem_append.mp hc with hshard | hrest
  · exact hdrawn _ c hshard
  · rcases List.mem_append.mp hrest with hstamp | hsuffix
    · exact Text.forall_hexFixed hexDigit_plain _ _ c hstamp
    · exact hdrawn _ c hsuffix

theorem length_generate (h : millis < Nat.pow 16 stampLength) :
    (generate shard millis suffix).text.length = shardLength + (stampLength + suffixLength) := by
  rw [← String.length_toList, toList_generate h]
  simp [Text.length_hexFixed]

/-- The stamp is found where it was put. -/
theorem timestampPart_generate (h : millis < Nat.pow 16 stampLength) :
    (generate shard millis suffix).timestampPart
      = some (String.ofList (Text.hexFixed stampLength millis)) := by
  have hplain : ∀ c ∈ (generate shard millis suffix).text.toList, IsPlain c := generate_plain h
  rw [toList_generate h] at hplain
  have hshard := cutAtByte_front (fun c hc => hplain c (List.mem_append_left _ hc))
    (Text.hexFixed stampLength millis ++ suffix.toList.map drawn)
  have hstamp := cutAtByte_front
    (fun c hc => hplain c (List.mem_append_right _ (List.mem_append_left _ hc)))
    (suffix.toList.map drawn)
  rw [List.length_map, Vector.length_toList] at hshard
  rw [Text.length_hexFixed] at hstamp
  unfold timestampPart
  rw [toList_generate h, hshard]
  simp [hstamp]

theorem generate_pathSafe (h : millis < Nat.pow 16 stampLength) :
    (generate shard millis suffix).isPathSafe = true := by
  unfold isPathSafe
  rw [Bool.and_eq_true, List.all_eq_true, bne_iff_ne]
  refine ⟨fun hempty => ?_, fun c hc => (generate_plain h c hc).pathSafe⟩
  have hlength := congrArg String.length hempty
  rw [length_generate h] at hlength
  cases hlength

/-! ## §4. What is promised of them. -/

/-- What is promised of an identifier with the time `millis` in it. -/
structure Stamped (id : ExchangeId) (millis : Nat) : Prop where
  length : id.text.length = 22
  plain : ∀ c ∈ id.text.toList, IsPlain c
  pathSafe : id.isPathSafe = true
  /-- No write is refused for the identifier. -/
  written : ∀ (s : Store) d chunk other, (s.write d id chunk).1 ≠ .error (.unusableId other)
  /-- On every day it has a directory in the archive. -/
  filed : ∀ base date, ∃ target, Archive.shardDirectory base date id = .ok target
  /-- The stamp holds the time, in twelve hexadecimal digits. -/
  stamped : ∃ stamp, id.timestampPart = some stamp ∧ stamp.length = 12
    ∧ Text.readHex? stamp.toList = some millis

/-- The order of the bytes of two texts. -/
def BytesBefore (a b : String) : Prop := List.Lex (· < ·) (Utf8.encode a) (Utf8.encode b)

/-- Every generated identifier can be stored, and its time can be read. -/
theorem stamped_generate (h : millis < Nat.pow 16 stampLength) :
    (generate shard millis suffix).Stamped millis where
  length := length_generate h
  plain := generate_plain h
  pathSafe := generate_pathSafe h
  written := by
    intro s d chunk other hfail
    rcases Store.write_error hfail with hfile | ⟨hunfit, -⟩
    · exact hfile
    · rw [generate_pathSafe h] at hunfit
      cases hunfit
  filed := by
    intro base date
    refine ⟨_, Archive.shardDirectory_eq_ok.mpr ⟨generate_pathSafe h, ?_, rfl⟩⟩
    rw [length_generate h]
    decide
  stamped := by
    refine ⟨_, timestampPart_generate h, ?_, ?_⟩
    · rw [String.length_ofList, Text.length_hexFixed]
      rfl
    · rw [String.toList_ofList]
      exact Text.readHex?_hexFixed h

/-- Where the first characters are the same, the order of the times is that of the characters. -/
theorem lex_generate {shard' : Vector (Fin 62) shardLength}
    {suffix' : Vector (Fin 62) suffixLength} {later : Nat} (hlt : millis < later)
    (hlater : later < Nat.pow 16 stampLength)
    (hshard : shard.toList.map drawn = shard'.toList.map drawn) :
    List.Lex (· < ·) (generate shard millis suffix).text.toList
      (generate shard' later suffix').text.toList := by
  rw [toList_generate (hlt.trans hlater), toList_generate hlater, hshard]
  exact List.Lex.append_left _ (Text.lex_append (Text.lex_hexFixed hlt hlater)
    (by rw [Text.length_hexFixed, Text.length_hexFixed]) _ _) _

theorem take_generate (h : millis < Nat.pow 16 stampLength) :
    (generate shard millis suffix).text.toList.take shardLength = shard.toList.map drawn := by
  rw [toList_generate h]
  exact List.take_left' (by simp)

/-- **Generated identifiers are storable, and sort by time**: each has the time in its stamp, and
of two the stamp of the earlier comes first; so does the identifier, where the first four
characters are the same. -/
theorem generate_stamped (shard : Vector (Fin 62) shardLength)
    (suffix : Vector (Fin 62) suffixLength) {millis : Nat} (h : millis < Nat.pow 16 12) :
    (generate shard millis suffix).Stamped millis
      ∧ ∀ (shard' : Vector (Fin 62) shardLength) (suffix' : Vector (Fin 62) suffixLength)
          (later : Nat), millis < later → later < Nat.pow 16 12 →
        (∃ stamp stamp', (generate shard millis suffix).timestampPart = some stamp
          ∧ (generate shard' later suffix').timestampPart = some stamp'
          ∧ BytesBefore stamp stamp')
        ∧ ((generate shard millis suffix).text.toList.take 4
              = (generate shard' later suffix').text.toList.take 4 →
            BytesBefore (generate shard millis suffix).text (generate shard' later suffix').text
            ∧ (generate shard millis suffix).comesBefore
                (generate shard' later suffix') = true) := by
  refine ⟨stamped_generate h, fun shard' suffix' later hlt hlater => ⟨?_, fun hfront => ?_⟩⟩
  · refine ⟨_, _, timestampPart_generate h, timestampPart_generate hlater, ?_⟩
    have hascii : ∀ n : Nat, ∀ c ∈ Text.hexFixed stampLength n, c.toNat < 0x80 := fun n c hc =>
      (Text.forall_hexFixed hexDigit_plain _ _ c hc).ascii
    exact Utf8.lex_encode (hascii millis) (hascii later) (Text.lex_hexFixed hlt hlater)
  · have hshard : shard.toList.map drawn = shard'.toList.map drawn := by
      rwa [← take_generate h, ← take_generate hlater]
    have hlex : List.Lex (· < ·) (generate shard millis suffix).text.toList
        (generate shard' later suffix').text.toList := lex_generate hlt hlater hshard
    constructor
    · have hbytes := Utf8.lex_encode (fun c hc => (generate_plain h c hc).ascii)
        (fun c hc => (generate_plain hlater c hc).ascii) hlex
      rwa [String.ofList_toList, String.ofList_toList] at hbytes
    · unfold comesBefore
      rw [decide_eq_true_eq, String.lt_iff]
      exact List.lex_lt.mp hlex

/-- Other draws may give the same first characters; the later of two identifiers then comes
behind, although it ends with a character that comes before. -/
theorem generate_stamped_same_shard :
    (generate (.replicate 4 0) 1700000000000 (.replicate 6 25)).Stamped 1700000000000
      ∧ (generate (.replicate 4 0) 1700000000000 (.replicate 6 25)).comesBefore
          (generate (.replicate 4 26) 1700000000001 (.replicate 6 0)) = true := by
  obtain ⟨hstamped, hlater⟩ := generate_stamped (.replicate 4 0) (.replicate 6 25)
    (show 1700000000000 < Nat.pow 16 12 by decide)
  have hsame : (generate (.replicate 4 0) 1700000000000 (.replicate 6 25)).text.toList.take 4
      = (generate (.replicate 4 26) 1700000000001 (.replicate 6 0)).text.toList.take 4 := by
    decide +kernel
  exact ⟨hstamped, ((hlater (.replicate 4 26) (.replicate 6 0) 1700000000001 (by decide)
    (by decide)).2 hsame).2⟩

end ExchangeId

end Wiretap
