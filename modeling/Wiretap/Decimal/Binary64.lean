/-
  Wiretap.Decimal.Binary64
  ────────────────────────
  **DOUBLE PRECISION BY EXACT ROUNDING.**

  A finite, non-negative double is `significand · 2 ^ exponent`.  Every operation is the
  exact result on fractions of natural numbers, rounded once: to the nearest double, and
  from half way to the one with the even significand.
-/

namespace Wiretap.Decimal

/-! ## §1. Rounding a quotient. -/

/-- `num / den` rounded to a whole number, a half to the even neighbour. -/
def roundHalfEven (num den : Nat) : Nat :=
  let whole := num / den
  let twice := 2 * (num % den)
  if twice < den then whole
  else if den < twice then whole + 1
  else if whole % 2 = 0 then whole else whole + 1

/-- A power of two as a fraction. -/
def twoPower (e : Int) : Nat × Nat :=
  if 0 ≤ e then (Nat.pow 2 e.toNat, 1) else (1, Nat.pow 2 (-e).toNat)

/-- The exponent `e` with `2 ^ e ≤ num / den < 2 ^ (e + 1)`, for a positive fraction. -/
def binaryMagnitude (num den : Nat) : Int :=
  let e : Int := Int.ofNat num.log2 - Int.ofNat den.log2
  let (up, down) := twoPower e
  if num * down < den * up then e - 1 else e

/-! ## §2. Doubles. -/

/-- The double `significand · 2 ^ exponent`. -/
structure Binary64 where
  significand : Nat
  exponent : Int
  deriving DecidableEq, Repr

namespace Binary64

/-- The exponent of the smallest positive double. -/
def leastExponent : Int := -1074

/-- The least significand of full precision, which has 53 bits. -/
def leastNormal : Nat := Nat.pow 2 52

/-- The least number that rounds to no double, half a step above the largest one. -/
def overflow : Nat := Nat.pow 2 1024 - Nat.pow 2 970

/-- Zero. -/
def zero : Binary64 := ⟨0, leastExponent⟩

/-- The double nearest to a fraction. -/
def ofRatio (num den : Nat) : Binary64 :=
  if num = 0 then zero
  else
    let q := max (binaryMagnitude num den - 52) leastExponent
    let (up, down) := twoPower q
    let m := roundHalfEven (num * down) (den * up)
    if m = 2 * leastNormal then ⟨leastNormal, q + 1⟩ else ⟨m, q⟩

/-- The exact value as a fraction. -/
def toRatio (x : Binary64) : Nat × Nat :=
  let (up, down) := twoPower x.exponent
  (x.significand * up, down)

/-- The double nearest to a natural number. -/
def ofNat (n : Nat) : Binary64 := ofRatio n 1

/-- The sum of two doubles. -/
def add (x y : Binary64) : Binary64 :=
  let (a, b) := x.toRatio
  let (c, d) := y.toRatio
  ofRatio (a * d + c * b) (b * d)

/-- The product of two doubles. -/
def mul (x y : Binary64) : Binary64 :=
  let (a, b) := x.toRatio
  let (c, d) := y.toRatio
  ofRatio (a * c) (b * d)

end Binary64

end Wiretap.Decimal
