/-
  Wiretap.Decimal.Shortest
  ────────────────────────
  **THE FEWEST DIGITS THAT READ BACK.**

  The reals that round to one double form an interval around it; its ends belong to it
  when the significand is even.  For 1, 2, … 17 digits `shortest` tries the two
  neighbours of the value on the grid of decimals with so many digits.  The first grid
  with a neighbour inside the interval wins, and of two neighbours the nearer.
-/
import Wiretap.Decimal.Binary64

namespace Wiretap.Decimal

/-- The decimal `digits · 10 ^ exponent`. -/
structure Scientific where
  digits : Nat
  exponent : Int
  deriving DecidableEq, Repr

/-- The least `j` with `n < 10 ^ j`: how many digits a positive number has. -/
def digitCount (n : Nat) : Nat := if h : n = 0 then 0 else digitCount (n / 10) + 1
termination_by n
decreasing_by exact Nat.div_lt_self (Nat.pos_of_ne_zero h) (by decide)

/-- The exponent `k` with `10 ^ k ≤ num / den < 10 ^ (k + 1)`, for a positive fraction. -/
def decimalMagnitude (num den : Nat) : Int :=
  if den ≤ num then Int.ofNat (digitCount (num / den)) - 1
  else -(Int.ofNat (digitCount ((den - 1) / num)))

/-- A power of ten as a fraction. -/
def tenPower (e : Int) : Nat × Nat :=
  if 0 ≤ e then (Nat.pow 10 e.toNat, 1) else (1, Nat.pow 10 (-e).toNat)

/-- The same decimal without trailing zeros in its digits. -/
def Scientific.normalize (x : Scientific) : Scientific :=
  if h : x.digits ≠ 0 ∧ x.digits % 10 = 0 then
    Scientific.normalize ⟨x.digits / 10, x.exponent + 1⟩
  else x
termination_by x.digits
decreasing_by exact Nat.div_lt_self (Nat.pos_of_ne_zero h.1) (by decide)

/-- The fractions over one denominator between which everything rounds to `x`. -/
structure Interval where
  low : Nat
  value : Nat
  high : Nat
  den : Nat
  closed : Bool

/-- The interval of a positive double. -/
def Binary64.interval (x : Binary64) : Interval :=
  let (up, down) := twoPower (x.exponent - 2)
  let below := if x.significand = leastNormal && Binary64.leastExponent < x.exponent then 1 else 2
  ⟨(4 * x.significand - below) * up, 4 * x.significand * up, (4 * x.significand + 2) * up, down,
    x.significand % 2 = 0⟩

/-- Whether `c · 10 ^ e` lies in the interval. -/
def Interval.holds (i : Interval) (c : Nat) (e : Int) : Bool :=
  let (up, down) := tenPower e
  let here := c * up * i.den
  if i.closed then i.low * down ≤ here && here ≤ i.high * down
  else i.low * down < here && here < i.high * down

/-- The neighbour of the value on the grid of step `10 ^ e` that lies in the interval, if any. -/
def Interval.onGrid (i : Interval) (e : Int) : Option Scientific :=
  let (up, down) := tenPower e
  let floor := i.value * down / (i.den * up)
  let rest := i.value * down % (i.den * up)
  match i.holds floor e, i.holds (floor + 1) e with
  | true, true =>
    if 2 * rest < i.den * up || (2 * rest = i.den * up && floor % 2 = 0) then some ⟨floor, e⟩
    else some ⟨floor + 1, e⟩
  | true, false => some ⟨floor, e⟩
  | false, true => some ⟨floor + 1, e⟩
  | false, false => none

/-- The shortest decimal that reads back as the double. -/
def shortest (x : Binary64) : Scientific :=
  if x.significand = 0 then ⟨0, 0⟩
  else
    let i := x.interval
    let k := decimalMagnitude i.value i.den
    match (List.range 17).findSome? fun n => i.onGrid (k - Int.ofNat n) with
    | some found => found.normalize
    | none => ⟨0, 0⟩

/-- The digits of a number, most significant first. -/
def digitText (n : Nat) : List Char := Nat.toDigits 10 n

end Wiretap.Decimal
