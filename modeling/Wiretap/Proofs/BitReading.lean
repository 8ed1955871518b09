/-
  Wiretap.Proofs.BitReading
  ─────────────────────────
  **READING WORDS OF BITS.**

  A reader takes a word when it goes on behind it wherever the word comes next, and asks for more
  wherever the input ends inside the word (`Takes`).  Words that are taken one behind the other
  make up a longer one (`Takes.andThen`), so that each reader of a format is described by what is
  written there:

    • `bit_reads`     — a single bit,
    • `number_reads`  — a number of so many bits,
    • `read_reads`    — a symbol, by its way through the tree of a code.
-/
import Wiretap.Coding.Huffman

namespace Wiretap.Coding

/-! ## §1. The bits of bytes. -/

/-- The bits of a byte string, the lowest of each byte first. -/
def bitsOfBytes (bytes : Bytes) : List Bool := bytes.flatMap bitsOf

theorem bitsOfBytes_cons (b : UInt8) (bytes : Bytes) :
    bitsOfBytes (b :: bytes) = bitsOf b ++ bitsOfBytes bytes := rfl

theorem bitsOfBytes_append (a b : Bytes) :
    bitsOfBytes (a ++ b) = bitsOfBytes a ++ bitsOfBytes b := List.flatMap_append

theorem length_bitsOf (b : UInt8) : (bitsOf b).length = 8 := rfl

theorem length_bitsOfBytes (bytes : Bytes) : (bitsOfBytes bytes).length = 8 * bytes.length := by
  induction bytes with
  | nil => rfl
  | cons b rest ih =>
      rw [bitsOfBytes_cons, List.length_append, length_bitsOf, ih, List.length_cons]
      omega

/-- The number that some bits write, the lowest first. -/
def bitValue : List Bool → Nat
  | [] => 0
  | b :: bits => b.toNat + 2 * bitValue bits

theorem bitValue_append (a b : List Bool) :
    bitValue (a ++ b) = bitValue a + Nat.pow 2 a.length * bitValue b := by
  induction a with
  | nil =>
      show bitValue b = 0 + 1 * bitValue b
      omega
  | cons bit a ih =>
      have htwice : Nat.pow 2 (bit :: a).length = 2 * Nat.pow 2 a.length := Nat.mul_comm _ 2
      rw [List.cons_append, bitValue, bitValue, ih, htwice, Nat.mul_add, Nat.mul_assoc,
        Nat.add_assoc]

theorem bitValue_lt (a : List Bool) : bitValue a < Nat.pow 2 a.length := by
  induction a with
  | nil => exact Nat.one_pos
  | cons bit a ih =>
      have htwice : Nat.pow 2 (bit :: a).length = 2 * Nat.pow 2 a.length := Nat.mul_comm _ 2
      have hbit := Bool.toNat_lt bit
      rw [bitValue, htwice]
      omega

theorem bitValue_bitsOf (b : UInt8) : bitValue (bitsOf b) = b.toNat := by
  have hlt := b.toNat_lt
  simp only [bitsOf, bitValue, Nat.toNat_testBit]
  omega

theorem bitsOf_inj {a b : UInt8} (h : bitsOf a = bitsOf b) : a = b := by
  rw [← UInt8.toNat_inj, ← bitValue_bitsOf a, h, bitValue_bitsOf b]

/-- What begins with the bits of some bytes begins with these bytes. -/
theorem exists_of_bitsOfBytes_eq {bytes front : Bytes} {more : List Bool}
    (h : bitsOfBytes bytes = bitsOfBytes front ++ more) :
    ∃ rest, bytes = front ++ rest ∧ more = bitsOfBytes rest := by
  induction front generalizing bytes with
  | nil => exact ⟨bytes, rfl, h.symm⟩
  | cons b front ih =>
      cases bytes with
      | nil =>
          have hlength := congrArg List.length h
          rw [bitsOfBytes_cons, List.length_append, List.length_append, length_bitsOf] at hlength
          simp only [bitsOfBytes, List.flatMap_nil, List.length_nil] at hlength
          omega
      | cons b' bytes =>
          rw [bitsOfBytes_cons, bitsOfBytes_cons, List.append_assoc] at h
          obtain ⟨hbyte, hrest⟩ := List.append_inj h rfl
          obtain ⟨rest, rfl, hmore⟩ := ih hrest
          exact ⟨rest, by rw [bitsOf_inj hbyte, List.cons_append], hmore⟩

theorem bitsOfBytes_inj {a b : Bytes} (h : bitsOfBytes a = bitsOfBytes b) : a = b := by
  have hfront : bitsOfBytes a = bitsOfBytes b ++ [] := by rw [h, List.append_nil]
  obtain ⟨rest, rfl, hnil⟩ := exists_of_bitsOfBytes_eq hfront
  have hrest : rest = [] := by
    have hlength := congrArg List.length hnil
    rw [length_bitsOfBytes, List.length_nil] at hlength
    exact List.eq_nil_of_length_eq_zero (by omega)
  rw [hrest, List.append_nil]

/-- The bits of a number, the lowest first. -/
def numberBits : (count n : Nat) → List Bool
  | 0, _ => []
  | count + 1, n => (n % 2 == 1) :: numberBits count (n / 2)

/-- A number is its lowest bit and twice its half. -/
theorem toNat_add_half (n : Nat) : (n % 2 == 1).toNat + 2 * (n / 2) = n := by
  rcases Nat.mod_two_eq_zero_or_one n with hzero | hone
  · rw [hzero]
    show 0 + 2 * (n / 2) = n
    omega
  · rw [hone]
    show 1 + 2 * (n / 2) = n
    omega

/-- The half of a number needs one bit less. -/
theorem half_lt {count n : Nat} (h : n < Nat.pow 2 (count + 1)) : n / 2 < Nat.pow 2 count := by
  have htwice : n < Nat.pow 2 count * 2 := h
  omega

theorem bitValue_numberBits {count n : Nat} (h : n < Nat.pow 2 count) :
    bitValue (numberBits count n) = n := by
  induction count generalizing n with
  | zero => exact (Nat.lt_one_iff.mp h).symm
  | succ count ih => rw [numberBits, bitValue, ih (half_lt h), toNat_add_half]

/-! ## §2. Readers. -/

namespace BitInput

/-- The bits that are left. -/
def bits (i : BitInput) : List Bool := i.pending ++ bitsOfBytes i.rest

/-- Of the byte begun there are less than eight bits left, and these are all the bits that come. -/
structure Ahead (i : BitInput) (bits : List Bool) : Prop where
  pending : i.pending.length < 8
  bits : i.bits = bits

theorem ofBytes_ahead (bytes : Bytes) : (ofBytes bytes).Ahead (bitsOfBytes bytes) :=
  ⟨Nat.zero_lt_succ 7, rfl⟩

theorem Ahead.length {i : BitInput} {bits : List Bool} (h : i.Ahead bits) :
    i.pending.length + 8 * i.rest.length = bits.length := by
  rw [← h.bits, BitInput.bits, List.length_append, length_bitsOfBytes]

/-- Where the bits left over from a byte are known by their number, they are the first ones. -/
theorem Ahead.pending_eq {i : BitInput} {front more : List Bool} (h : i.Ahead (front ++ more))
    (hlength : i.pending.length = front.length) :
    i.pending = front ∧ bitsOfBytes i.rest = more := List.append_inj h.bits hlength

end BitInput

/-- A part that is not the whole is shorter. -/
theorem length_lt_of_part {α : Type} {bits a : List α} (h : bits <+: a) (hne : bits ≠ a) :
    bits.length < a.length :=
  Nat.lt_of_le_of_ne h.length_le fun hlength => hne (h.eq_of_length hlength)

/-- A part of two words ends inside the first, or behind it inside the second. -/
theorem part_append {α : Type} {bits a b : List α} (h : bits <+: a ++ b) (hne : bits ≠ a ++ b) :
    (bits <+: a ∧ bits ≠ a) ∨ ∃ bits', bits = a ++ bits' ∧ bits' <+: b ∧ bits' ≠ b := by
  rcases List.prefix_or_prefix_of_prefix h (List.prefix_append a b) with hpart | ⟨bits', rfl⟩
  · by_cases heq : bits = a
    · -- all of the first and nothing of the second
      subst heq
      refine Or.inr ⟨[], (List.append_nil bits).symm, List.nil_prefix, fun hnil => hne ?_⟩
      rw [← hnil, List.append_nil]
    · exact Or.inl ⟨hpart, heq⟩
  · exact Or.inr ⟨bits', rfl, (List.prefix_append_right_inj a).mp h,
      fun heq => hne (by rw [heq])⟩

/-- What it means that a reader takes a word from inputs that stand as they should: where the word
comes next, it goes on behind the word with what it has found; where the input ends inside the
word, its word is cut. -/
structure Takes {ρ : Type} (stands : BitInput → List Bool → Prop) (read : BitInput → ρ)
    (word : List Bool) (found : BitInput → ρ) (cut : ρ → Prop) : Prop where
  whole : ∀ {i : BitInput} {more : List Bool}, stands i (word ++ more) →
    ∃ i', read i = found i' ∧ i'.Ahead more
  part : ∀ {i : BitInput} {bits : List Bool}, stands i bits → bits <+: word → bits ≠ word →
    cut (read i)

namespace Takes

variable {ρ σ : Type} {stands stands' : BitInput → List Bool → Prop} {word word' : List Bool}
variable {read : BitInput → ρ} {found : BitInput → ρ} {cut : ρ → Prop}
variable {full next : BitInput → σ} {found' : BitInput → σ} {cut' : σ → Prop}

theorem mono (h : Takes stands read word found cut)
    (hstands : ∀ {i bits}, stands' i bits → stands i bits) : Takes stands' read word found cut where
  whole hthere := h.whole (hstands hthere)
  part hthere := h.part (hstands hthere)

/-- **Two words one behind the other.**  A reader takes both when it takes the first, does behind
it what a reader of the second does, and where the first is cut is cut as well. -/
theorem andThen (h : Takes stands read word found cut)
    (hbehind : ∀ {i i' bits}, stands i (word ++ bits) → i'.Ahead bits → stands' i' bits)
    (hfound : ∀ i i', read i = found i' → full i = next i')
    (hcut : ∀ i, cut (read i) → cut' (full i)) (hnext : Takes stands' next word' found' cut') :
    Takes stands full (word ++ word') found' cut' where
  whole {i more} hthere := by
    rw [List.append_assoc] at hthere
    obtain ⟨i₁, hread, hahead₁⟩ := h.whole hthere
    obtain ⟨i₂, hread₂, hahead₂⟩ := hnext.whole (hbehind hthere hahead₁)
    exact ⟨i₂, (hfound i i₁ hread).trans hread₂, hahead₂⟩
  part {i bits} hthere hpart hne := by
    rcases part_append hpart hne with ⟨hfirst, hne₁⟩ | ⟨bits', rfl, hsecond, hne₂⟩
    · exact hcut i (h.part hthere hfirst hne₁)
    · -- the first word is there, the second is cut
      obtain ⟨i₁, hread, hahead₁⟩ := h.whole hthere
      rw [hfound i i₁ hread]
      exact hnext.part (hbehind hthere hahead₁) hsecond hne₂

end Takes

/-- What it means that a reader reads a word: where the word comes next, it finds the value and
goes on behind it; where the input ends inside the word, it says that there is too little. -/
abbrev Reads {α : Type} (read : BitInput → Except DeflateFault (α × BitInput)) (word : List Bool)
    (value : α) : Prop :=
  Takes BitInput.Ahead read word (fun i => .ok (value, i)) (· = .error .incomplete)

namespace Reads

variable {α β : Type} {read : BitInput → Except DeflateFault (α × BitInput)} {a : α} {b : β}
variable {word word' : List Bool}

/-- To read nothing is to know the value. -/
theorem pure (a : α) : Reads (fun i => .ok (a, i)) [] a where
  whole h := ⟨_, rfl, h⟩
  part _ hpart hne := absurd (List.prefix_nil.mp hpart) hne

/-- What is read behind a word may depend on its value. -/
theorem bind {next : α × BitInput → Except DeflateFault (β × BitInput)} (h : Reads read word a)
    (hnext : Reads (fun i => next (a, i)) word' b) :
    Reads (fun i => read i >>= next) (word ++ word') b := by
  refine h.andThen (fun _ hahead => hahead) ?_ ?_ hnext
  · intro i i' hread
    simp only [hread]
    rfl
  · intro i hread
    simp only [hread]
    rfl

/-- A word, and a value that is made of its value. -/
theorem map (f : α → β) (h : Reads read word a) :
    Reads (fun i => read i >>= fun found => .ok (f found.1, found.2)) word (f a) := by
  have hnext : Reads (fun i => read i >>= fun found => .ok (f found.1, found.2)) (word ++ [])
      (f a) := h.bind (pure (f a))
  rwa [List.append_nil] at hnext

end Reads

/-! ## §3. Bits, numbers and symbols. -/

/-- The next bit. -/
theorem bit_reads (b : Bool) : Reads BitInput.bit [b] b where
  whole {i more} hahead := by
    obtain ⟨pending, rest⟩ := i
    cases pending with
    | cons b' pending =>
        obtain ⟨hlt, hbits⟩ := hahead
        obtain ⟨rfl, hmore⟩ := List.cons.inj hbits
        exact ⟨⟨pending, rest⟩, rfl, Nat.lt_of_succ_lt hlt, hmore⟩
    | nil =>
        cases rest with
        | nil => cases hahead.bits
        | cons byte rest =>
            obtain ⟨rfl, hmore⟩ := List.cons.inj hahead.bits
            exact ⟨⟨(bitsOf byte).tail, rest⟩, rfl, Nat.lt_succ_self 7, hmore⟩
  part {i bits} hahead hpart hne := by
    have hnil : bits = [] := by
      rcases List.prefix_cons_iff.mp hpart with hnil | ⟨t, rfl, ht⟩
      · exact hnil
      · rw [List.prefix_nil.mp ht] at hne
        exact absurd rfl hne
    subst hnil
    obtain ⟨pending, rest⟩ := i
    obtain ⟨rfl, hrest⟩ := List.append_eq_nil_iff.mp hahead.bits
    cases rest with
    | nil => rfl
    | cons byte rest => cases hrest

/-- A number below the power of two for its bits. -/
theorem number_reads {count n : Nat} (h : n < Nat.pow 2 count) :
    Reads (BitInput.number count) (numberBits count n) n := by
  induction count generalizing n with
  | zero =>
      obtain rfl : n = 0 := Nat.lt_one_iff.mp h
      exact .pure 0
  | succ count ih =>
      -- the lowest bit is read first, and then the others, which make up half of the number
      have hothers := (ih (half_lt h)).map fun high => 2 * high + (n % 2 == 1).toNat
      rw [Nat.add_comm, toNat_add_half] at hothers
      exact (bit_reads (n % 2 == 1)).bind hothers

namespace CodeTree

/-- Where a word leads from the root of a code. -/
def follow : CodeTree → List Bool → Option Nat
  | .leaf symbol, [] => some symbol
  | .branch zero one, b :: word => if b then one.follow word else zero.follow word
  | _, _ => none

/-- The word of a symbol; it has at least one bit. -/
structure Word (code : CodeTree) (word : List Bool) (symbol : Nat) : Prop where
  ne_nil : word ≠ []
  follow : code.follow word = some symbol

theorem read_of_follow {code : CodeTree} {word : List Bool} {symbol : Nat}
    (h : code.follow word = some symbol) : Reads code.read word symbol := by
  induction code generalizing word with
  | vacant => cases word <;> cases h
  | leaf found =>
      cases word with
      | nil =>
          obtain rfl : found = symbol := Option.some.inj h
          exact .pure found
      | cons b word => cases h
  | branch zero one ihZero ihOne =>
      cases word with
      | nil => cases h
      | cons b word =>
          have hnext : Reads (fun i => if b then one.read i else zero.read i) word symbol := by
            cases b with
            | true => exact ihOne h
            | false => exact ihZero h
          exact (bit_reads b).bind hnext

/-- A symbol is read by its word. -/
theorem read_reads {code : CodeTree} {word : List Bool} {symbol : Nat}
    (h : code.Word word symbol) : Reads code.read word symbol := read_of_follow h.follow

end CodeTree

end Wiretap.Coding
