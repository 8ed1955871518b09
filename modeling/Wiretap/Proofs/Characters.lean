/-
  Wiretap.Proofs.Characters
  ─────────────────────────
  **THE CHARACTERS OF TEXTS.**

  Lower case moves letters and nothing else.  So texts that differ at most in the case of
  their letters have the same marks, and within ASCII it makes no difference which of the two
  mappings is taken.  Numbers are written in digits:

    • `Text.toLower_eq_or`             — a character stays or becomes a small letter,
    • `Text.mem_iff_of_same`           — the marks of texts that differ in case,
    • `Text.lowercase_of_ascii`        — the two mappings agree within ASCII,
    • `Text.isDigit_of_mem_toString`   — the characters of a number.
-/
import Wiretap.Text.Ascii
import Wiretap.Text.Lowercase

namespace Wiretap.Text

/-! ## §1. One character. -/

/-- A capital letter becomes the letter 32 places on. -/
theorem toNat_toLower_of_upper {c : Char} (h : 65 ≤ c.toNat ∧ c.toNat ≤ 90) :
    c.toLower.toNat = c.toNat + 32 := by
  have hlow : 65 ≤ c.val.toNat := h.1
  have hhigh : c.val.toNat ≤ 90 := h.2
  unfold Char.toLower
  rw [dif_pos ⟨hlow, hhigh⟩]
  show (c.val + ('a'.val - 'A'.val)).toNat = c.val.toNat + 32
  rw [UInt32.toNat_add, show ('a'.val - 'A'.val).toNat = 32 from rfl]
  omega

theorem toLower_of_not_upper {c : Char} (h : ¬ (65 ≤ c.toNat ∧ c.toNat ≤ 90)) : c.toLower = c :=
  dif_neg h

/-- To change the case of letters makes no other character. -/
theorem toLower_eq_or (c : Char) : c.toLower = c ∨ 'a'.toNat ≤ c.toLower.toNat := by
  by_cases hupper : 65 ≤ c.toNat ∧ c.toNat ≤ 90
  · refine Or.inr ?_
    rw [toNat_toLower_of_upper hupper]
    show 97 ≤ c.toNat + 32
    omega
  · exact Or.inl (toLower_of_not_upper hupper)

@[simp] theorem toLower_toLower (c : Char) : c.toLower.toLower = c.toLower := by
  by_cases hupper : 65 ≤ c.toNat ∧ c.toNat ≤ 90
  · refine toLower_of_not_upper ?_
    rw [toNat_toLower_of_upper hupper]
    omega
  · rw [toLower_of_not_upper hupper, toLower_of_not_upper hupper]

/-- A character that stands before the letters of both cases, or between them. -/
def IsMark (c : Char) : Prop := c.toLower = c ∧ c.toNat < 97

instance (c : Char) : Decidable (IsMark c) := inferInstanceAs (Decidable (_ ∧ _))

/-- No other character becomes a mark. -/
theorem toLower_eq_mark_iff {c mark : Char} (hmark : IsMark mark) :
    c.toLower = mark ↔ c = mark := by
  constructor
  · rintro rfl
    rcases toLower_eq_or c with hsame | hsmall
    · exact hsame.symm
    · exact absurd hsmall (Nat.not_le.mpr hmark.2)
  · rintro rfl
    exact hmark.1

/-! ## §2. Letter case. -/

theorem sameIgnoringAsciiCase_iff {a b : String} : sameIgnoringAsciiCase a b = true ↔
    a.toList.map Char.toLower = b.toList.map Char.toLower := by
  unfold sameIgnoringAsciiCase asciiLower
  rw [beq_iff_eq, ← String.toList_inj, String.toList_map, String.toList_map]

theorem mem_asciiLower {c : Char} {s : String} (h : c ∈ s.toList) :
    c.toLower ∈ (asciiLower s).toList := by
  rw [asciiLower, String.toList_map]
  exact List.mem_map_of_mem h

/-- Texts that differ in case at most have the same marks. -/
theorem mem_iff_of_same {a b : String} {mark : Char} (hmark : IsMark mark)
    (h : sameIgnoringAsciiCase a b = true) : mark ∈ a.toList ↔ mark ∈ b.toList := by
  have hmap (s : String) : mark ∈ s.toList ↔ mark ∈ s.toList.map Char.toLower := by
    simp only [List.mem_map, toLower_eq_mark_iff hmark, exists_eq_right]
  rw [hmap a, hmap b, sameIgnoringAsciiCase_iff.mp h]

/-- The lower case of a text within ASCII is that of its letters, one by one. -/
theorem lowerFrom_of_ascii {cs : List Char} (h : ∀ c ∈ cs, c.toNat < 128) (before : List Char) :
    lowerFrom before cs = cs.map Char.toLower := by
  induction cs generalizing before with
  | nil => rfl
  | cons c rest ih =>
      obtain ⟨hc, hrest⟩ := List.forall_mem_cons.mp h
      unfold lowerFrom
      rw [if_neg (by omega), if_neg (by omega), ih hrest]
      show [lowerChar c] ++ _ = _
      rw [lowerChar, if_pos hc]
      rfl

theorem lowercase_of_ascii {s : String} (h : ∀ c ∈ s.toList, c.toNat < 128) :
    lowercase s = asciiLower s := by
  rw [lowercase, lowerFrom_of_ascii h, ← String.toList_inj, asciiLower, String.toList_map,
    String.toList_ofList]

/-- It makes no difference to a comparison whether a text was put in lower case before. -/
theorem sameIgnoringAsciiCase_asciiLower (a b : String) :
    sameIgnoringAsciiCase a (asciiLower b) = sameIgnoringAsciiCase a b := by
  rw [Bool.eq_iff_iff, sameIgnoringAsciiCase_iff, sameIgnoringAsciiCase_iff, asciiLower,
    String.toList_map, List.map_map]
  have hlower : Char.toLower ∘ Char.toLower = Char.toLower := funext toLower_toLower
  rw [hlower]

theorem sameIgnoringAsciiCase_lowercase {a b : String} (h : ∀ c ∈ b.toList, c.toNat < 128) :
    sameIgnoringAsciiCase a (lowercase b) = sameIgnoringAsciiCase a b := by
  rw [lowercase_of_ascii h, sameIgnoringAsciiCase_asciiLower]

/-! ## §3. Numbers. -/

theorem isDigit_of_mem_toString {n : Nat} {c : Char} (h : c ∈ (toString n).toList) :
    c.isDigit = true := by
  rw [show toString n = String.ofList (Nat.toDigits 10 n) from rfl, String.toList_ofList] at h
  exact Nat.isDigit_of_mem_toDigits (by decide) (by decide) h

end Wiretap.Text
