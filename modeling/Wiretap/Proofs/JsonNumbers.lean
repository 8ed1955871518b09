/-
  Wiretap.Proofs.JsonNumbers
  ──────────────────────────
  **PRINTED NUMBERS ARE NUMBERS.**

  In JSON, a text is a number when it has a whole part without idle zeros in front, and behind
  it, each with at least one digit, a fraction and an exponent or neither.
  Every natural number and every double is printed as such a text:

    • `isNumber_append`           — how the parts make a number,
    • `isNumberChar_of_isNumber`  — the few characters that a number has,
    • `isNumber_digitText`        — natural numbers,
    • `isNumber_decimalText`      — decimals in each of the four layouts,
    • `isNumber_doubleText`       — doubles, whose shortest decimal is never an idle zero.
-/
import Wiretap.Json.Printer

namespace Wiretap.Json

/-! ## §1. The grammar of numbers. -/

/-- A character that a number may have. -/
def isNumberChar (c : Char) : Bool :=
  c.isDigit || c == '.' || c == 'e' || c == 'E' || c == '+' || c == '-'

/-- Digits, at least one. -/
def isDigits (cs : List Char) : Bool := !cs.isEmpty && cs.all Char.isDigit

/-- The whole part of a number: no zero leads other digits. -/
def isWhole (cs : List Char) : Bool := isDigits cs && (cs.length == 1 || cs.head? != some '0')

/-- An exponent, or nothing. -/
def isExponent : List Char → Bool
  | [] => true
  | c :: rest =>
    (c == 'e' || c == 'E')
      && isDigits (if rest.head? = some '+' ∨ rest.head? = some '-' then rest.tail else rest)

/-- A fraction and an exponent, each of which may be missing. -/
def isFraction (cs : List Char) : Bool :=
  if cs.head? = some '.' then
    isDigits (cs.tail.takeWhile Char.isDigit) && isExponent (cs.tail.dropWhile Char.isDigit)
  else isExponent cs

/-- A number. -/
def isNumber (token : List Char) : Bool :=
  let unsigned := if token.head? = some '-' then token.tail else token
  isWhole (unsigned.takeWhile Char.isDigit) && isFraction (unsigned.dropWhile Char.isDigit)

/-- No character of a kind comes next. -/
def Past (kind : Char → Bool) (rest : List Char) : Prop := ∀ c ∈ rest.head?, kind c = false

theorem Past.cons {kind : Char → Bool} {c : Char} (h : kind c = false) (rest : List Char) :
    Past kind (c :: rest) := by
  rintro d ⟨⟩
  exact h

/-- A run of characters of a kind ends where no such character comes next. -/
theorem span_append_of_past {kind : Char → Bool} {run rest : List Char}
    (h : ∀ c ∈ run, kind c = true) (hrest : Past kind rest) :
    (run ++ rest).takeWhile kind = run ∧ (run ++ rest).dropWhile kind = rest := by
  rw [List.takeWhile_append_of_pos h, List.dropWhile_append_of_pos h]
  cases rest with
  | nil => simp
  | cons c rest => simp [hrest c rfl]

theorem isDigits_iff {cs : List Char} :
    isDigits cs = true ↔ cs ≠ [] ∧ ∀ c ∈ cs, c.isDigit = true := by
  simp [isDigits]

theorem past_of_isExponent {cs : List Char} (h : isExponent cs = true) : Past Char.isDigit cs := by
  intro c hc
  cases cs with
  | nil => cases hc
  | cons d rest =>
      cases hc
      simp only [isExponent, Bool.and_eq_true, Bool.or_eq_true, beq_iff_eq] at h
      rcases h.1 with rfl | rfl <;> rfl

theorem past_of_isFraction {cs : List Char} (h : isFraction cs = true) : Past Char.isDigit cs := by
  unfold isFraction at h
  split at h
  next hpoint =>
    intro c hc
    rw [hpoint] at hc
    cases hc
    rfl
  next => exact past_of_isExponent h

theorem isFraction_of_isExponent {cs : List Char} (h : isExponent cs = true) :
    isFraction cs = true := by
  unfold isFraction
  split
  next hpoint =>
    cases cs with
    | nil => cases hpoint
    | cons c rest =>
        cases hpoint
        simp [isExponent] at h
  next => exact h

/-- A point with digits behind it makes a fraction. -/
theorem isFraction_point (digits rest : List Char) (h : isDigits digits = true)
    (hrest : isExponent rest = true) : isFraction ('.' :: (digits ++ rest)) = true := by
  obtain ⟨htake, hdrop⟩ := span_append_of_past (isDigits_iff.mp h).2 (past_of_isExponent hrest)
  simp [isFraction, htake, hdrop, h, hrest]

/-- A whole part with a fraction behind it makes a number. -/
theorem isNumber_append (whole rest : List Char) (h : isWhole whole = true)
    (hrest : isFraction rest = true) : isNumber (whole ++ rest) = true := by
  have hdigits := isDigits_iff.mp (Bool.and_eq_true_iff.mp h).1
  obtain ⟨htake, hdrop⟩ := span_append_of_past hdigits.2 (past_of_isFraction hrest)
  -- the whole part starts with a digit, so there is no sign to pass over
  have hsign : (whole ++ rest).head? ≠ some '-' := by
    cases whole with
    | nil => exact absurd rfl hdigits.1
    | cons d ds =>
        intro hd
        cases hd
        exact absurd (hdigits.2 '-' (List.mem_cons_self ..)) (by decide)
  simp only [isNumber, if_neg hsign, htake, hdrop, h, hrest, Bool.and_self]

theorem isNumberChar_of_isDigit {c : Char} (h : c.isDigit = true) : isNumberChar c = true := by
  simp [isNumberChar, h]

theorem isNumberChar_of_isExponent {cs : List Char} (h : isExponent cs = true) :
    ∀ c ∈ cs, isNumberChar c = true := by
  intro c hc
  cases cs with
  | nil => cases hc
  | cons d rest =>
      simp only [isExponent, Bool.and_eq_true, Bool.or_eq_true, beq_iff_eq] at h
      obtain ⟨hd, hrest⟩ := h
      have hdigits := (isDigits_iff.mp hrest).2
      rcases List.mem_cons.mp hc with rfl | hmem
      · rcases hd with rfl | rfl <;> rfl
      · split at hdigits
        next hsign =>
          cases rest with
          | nil => cases hmem
          | cons s rest =>
              rcases List.mem_cons.mp hmem with rfl | hmem
              · rcases hsign with hs | hs <;> cases hs <;> rfl
              · exact isNumberChar_of_isDigit (hdigits c hmem)
        next => exact isNumberChar_of_isDigit (hdigits c hmem)

theorem isNumberChar_of_run {cs : List Char}
    (hrest : ∀ c ∈ cs.dropWhile Char.isDigit, isNumberChar c = true) :
    ∀ c ∈ cs, isNumberChar c = true := by
  intro c hc
  rw [← List.takeWhile_append_dropWhile (p := Char.isDigit) (l := cs)] at hc
  rcases List.mem_append.mp hc with hdigit | hlater
  · exact isNumberChar_of_isDigit (List.all_eq_true.mp List.all_takeWhile c hdigit)
  · exact hrest c hlater

theorem isNumberChar_of_isFraction {cs : List Char} (h : isFraction cs = true) :
    ∀ c ∈ cs, isNumberChar c = true := by
  unfold isFraction at h
  split at h
  next hpoint =>
    cases cs with
    | nil => cases hpoint
    | cons p rest =>
        cases hpoint
        intro c hc
        rcases List.mem_cons.mp hc with rfl | hmem
        · rfl
        · have hexponent := isNumberChar_of_isExponent (Bool.and_eq_true_iff.mp h).2
          exact isNumberChar_of_run hexponent c hmem
  next => exact isNumberChar_of_isExponent h

theorem isNumberChar_of_isNumber {token : List Char} (h : isNumber token = true) :
    ∀ c ∈ token, isNumberChar c = true := by
  simp only [isNumber, Bool.and_eq_true] at h
  have hunsigned := isNumberChar_of_run (isNumberChar_of_isFraction h.2)
  intro c hc
  split at hunsigned
  next hsign =>
    cases token with
    | nil => cases hc
    | cons s rest =>
        cases hsign
        rcases List.mem_cons.mp hc with rfl | hmem
        · rfl
        · exact hunsigned c hmem
  next => exact hunsigned c hc

/-! ## §2. Printed numbers. -/

theorem isDigits_digitText (n : Nat) : isDigits (Decimal.digitText n) = true :=
  isDigits_iff.mpr ⟨Nat.toDigits_ne_nil, fun _ hc =>
    Nat.isDigit_of_mem_toDigits (by decide) (by decide) hc⟩

theorem head?_append_of_ne_nil {cs rest : List Char} (h : cs ≠ []) :
    (cs ++ rest).head? = cs.head? := by
  rw [List.head?_append, List.head?_eq_some_head h, Option.some_or]

/-- The digits of a positive number start with another one than zero. -/
theorem head?_digitText {n : Nat} (h : 0 < n) : (Decimal.digitText n).head? ≠ some '0' := by
  induction n using Nat.strongRecOn with
  | ind n ih =>
      unfold Decimal.digitText
      rw [Nat.toDigits_eq_if (by decide)]
      split
      next hlt =>
        intro hzero
        have hlow : ∀ m : Fin 10, m.val.digitChar = '0' → m.val = 0 := by decide
        have := hlow ⟨n, hlt⟩ (by simpa using hzero)
        simp only at this
        omega
      next hge =>
        rw [head?_append_of_ne_nil Nat.toDigits_ne_nil]
        exact ih (n / 10) (by omega) (by omega)

theorem isWhole_digitText (n : Nat) : isWhole (Decimal.digitText n) = true := by
  simp only [isWhole, isDigits_digitText, Bool.true_and, Bool.or_eq_true, beq_iff_eq,
    bne_iff_ne]
  rcases Nat.eq_zero_or_pos n with rfl | hpos
  · exact Or.inl rfl
  · exact Or.inr (head?_digitText hpos)

/-- A natural number is printed as a number. -/
theorem isNumber_digitText (n : Nat) : isNumber (Decimal.digitText n) = true := by
  simpa using isNumber_append _ [] (isWhole_digitText n) rfl

theorem isExponent_exponentText (e : Int) : isExponent (exponentText e) = true := by
  have hdigits := isDigits_digitText e.natAbs
  unfold exponentText
  split <;> simpa [isExponent] using hdigits

/-- Digits at most one of which, and that one alone, is a leading zero. -/
theorem isWhole_of_head {cs : List Char} (h : isDigits cs = true) (hhead : cs.head? ≠ some '0') :
    isWhole cs = true := by
  simp [isWhole, h, hhead]

theorem isDigits_zeros_append (n : Nat) {digits : List Char} (h : isDigits digits = true) :
    isDigits (List.replicate n '0' ++ digits) = true := by
  obtain ⟨hne, hall⟩ := isDigits_iff.mp h
  refine isDigits_iff.mpr ⟨by simp [hne], fun c hc => ?_⟩
  rcases List.mem_append.mp hc with hzero | hdigit
  · rw [(List.mem_replicate.mp hzero).2]
    rfl
  · exact hall c hdigit

/-- Digits with zeros and an idle fraction behind them. -/
theorem isNumber_plain {digits : List Char} (h : isDigits digits = true)
    (hhead : digits.head? ≠ some '0') (zeros : Nat) :
    isNumber (digits ++ List.replicate zeros '0' ++ ['.', '0']) = true := by
  obtain ⟨hne, hall⟩ := isDigits_iff.mp h
  refine isNumber_append _ _
    (isWhole_of_head (isDigits_iff.mpr ⟨by simp [hne], fun c hc => ?_⟩) ?_)
    (isFraction_point ['0'] [] rfl rfl)
  · rcases List.mem_append.mp hc with hdigit | hzero
    · exact hall c hdigit
    · rw [(List.mem_replicate.mp hzero).2]
      rfl
  · rw [head?_append_of_ne_nil hne]
    exact hhead

/-- A point between two digits. -/
theorem isNumber_mixed {digits : List Char} (h : isDigits digits = true)
    (hhead : digits.head? ≠ some '0') {n : Nat} (hpos : 0 < n) (hlt : n < digits.length) :
    isNumber (digits.take n ++ '.' :: digits.drop n) = true := by
  obtain ⟨hne, hall⟩ := isDigits_iff.mp h
  have hbefore : isDigits (digits.take n) = true :=
    isDigits_iff.mpr ⟨by simp [hne, Nat.ne_of_gt hpos],
      fun c hc => hall c (List.mem_of_mem_take hc)⟩
  have hbehind : isDigits (digits.drop n) = true :=
    isDigits_iff.mpr ⟨by simpa using hlt, fun c hc => hall c (List.mem_of_mem_drop hc)⟩
  refine isNumber_append _ _ (isWhole_of_head hbefore ?_) ?_
  · rw [List.head?_take, if_neg (Nat.ne_of_gt hpos)]
    exact hhead
  · simpa using isFraction_point _ [] hbehind rfl

/-- Zeros behind the point. -/
theorem isNumber_small {digits : List Char} (h : isDigits digits = true) (zeros : Nat) :
    isNumber ('0' :: '.' :: List.replicate zeros '0' ++ digits) = true := by
  have hbehind := isFraction_point _ [] (isDigits_zeros_append zeros h) rfl
  rw [List.append_nil] at hbehind
  exact isNumber_append ['0'] _ rfl hbehind

/-- One digit in front of the point, or no point, and an exponent. -/
theorem isNumber_scientific {d : Char} {rest : List Char} (h : isDigits (d :: rest) = true)
    (e : Int) : isNumber (d :: exponentText e) = true
      ∧ (rest ≠ [] → isNumber (d :: '.' :: rest ++ exponentText e) = true) := by
  have hall := (isDigits_iff.mp h).2
  have hone : isWhole [d] = true := by
    simp [isWhole, isDigits, hall d (List.mem_cons_self ..)]
  refine ⟨isNumber_append [d] _ hone (isFraction_of_isExponent (isExponent_exponentText e)),
    fun hne => isNumber_append [d] _ hone ?_⟩
  exact isFraction_point _ _
    (isDigits_iff.mpr ⟨hne, fun c hc => hall c (List.mem_cons_of_mem _ hc)⟩)
    (isExponent_exponentText e)

/-- A decimal is printed as a number, unless it is zero with a power of ten behind it. -/
theorem isNumber_decimalText {x : Decimal.Scientific} (h : x.digits = 0 → x.exponent = 0) :
    isNumber (decimalText x) = true := by
  rcases Nat.eq_zero_or_pos x.digits with hz | hpos
  · have hx : x = ⟨0, 0⟩ := by
      cases x
      simp_all
    rw [hx]
    decide
  have hdigits := isDigits_digitText x.digits
  have hhead := head?_digitText hpos
  unfold decimalText
  simp only [Int.ofNat_eq_natCast]
  split
  next => exact isNumber_plain hdigits hhead _
  next hwhole =>
    split
    next hmixed =>
      simp only [Bool.and_eq_true, decide_eq_true_eq, not_and] at hwhole hmixed
      have hneg : x.exponent < 0 := Int.not_le.mp fun hge => hwhole hge hmixed.2
      exact isNumber_mixed hdigits hhead (by omega) (by omega)
    next =>
      split
      next => exact isNumber_small hdigits _
      next =>
        split
        next d hd =>
          rw [hd] at hdigits
          exact (isNumber_scientific hdigits _).1
        next d rest hmore hd =>
          rw [hd] at hdigits
          exact (isNumber_scientific hdigits _).2 hmore
        next hd =>
          rw [hd] at hdigits
          cases hdigits

/-- No grid makes a positive double zero. -/
theorem digits_onGrid {i : Decimal.Interval} (hlow : 0 < i.low) {e : Int}
    {x : Decimal.Scientific} (h : i.onGrid e = some x) : x.digits ≠ 0 := by
  -- zero lies below the interval
  have hzero : i.holds 0 e = false := by
    have hdown : 0 < (Decimal.tenPower e).2 := by
      unfold Decimal.tenPower
      split
      · exact Nat.one_pos
      · exact Nat.pow_pos (by decide)
    have hfar : 0 < i.low * (Decimal.tenPower e).2 := Nat.mul_pos hlow hdown
    simp only [Decimal.Interval.holds, Nat.zero_mul]
    split
    · simp [Nat.not_le.mpr hfar]
    · simp
  unfold Decimal.Interval.onGrid at h
  simp only at h
  generalize i.value * _ / _ = floor at h
  split at h
  next hfloor hnext =>
    split at h <;> cases h
    · rintro (rfl : floor = 0)
      simp [hzero] at hfloor
    · exact Nat.succ_ne_zero floor
  next hfloor hnext =>
    cases h
    rintro (rfl : floor = 0)
    simp [hzero] at hfloor
  next hfloor hnext =>
    cases h
    exact Nat.succ_ne_zero floor
  next => cases h

theorem digits_normalize {x : Decimal.Scientific} (h : x.digits ≠ 0) : x.normalize.digits ≠ 0 := by
  induction x using Decimal.Scientific.normalize.induct with
  | case1 x hx ih =>
      rw [Decimal.Scientific.normalize, dif_pos hx]
      exact ih (by simp only; omega)
  | case2 x hx =>
      rw [Decimal.Scientific.normalize, dif_neg hx]
      exact h

theorem low_interval {x : Decimal.Binary64} (h : x.significand ≠ 0) : 0 < x.interval.low := by
  have hup : 0 < (Decimal.twoPower (x.exponent - 2)).1 := by
    unfold Decimal.twoPower
    split
    · exact Nat.pow_pos (by decide)
    · exact Nat.one_pos
  refine Nat.mul_pos ?_ hup
  split <;> omega

/-- The shortest decimal is zero with no power of ten, or not zero. -/
theorem exponent_shortest (x : Decimal.Binary64) (h : (Decimal.shortest x).digits = 0) :
    (Decimal.shortest x).exponent = 0 := by
  unfold Decimal.shortest at h ⊢
  split
  next => rfl
  next hx =>
    simp only [hx, if_false] at h ⊢
    split
    next found hfound =>
      rw [hfound] at h
      obtain ⟨n, -, hn⟩ := List.exists_of_findSome?_eq_some hfound
      exact absurd h (digits_normalize (digits_onGrid (low_interval hx) hn))
    next => rfl

/-- A double is printed as a number. -/
theorem isNumber_doubleText (x : Decimal.Binary64) : isNumber (doubleText x) = true :=
  isNumber_decimalText (exponent_shortest x)

end Wiretap.Json
