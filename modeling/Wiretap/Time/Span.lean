/-
  Wiretap.Time.Span
  ─────────────────
  **LENGTHS OF TIME.**

  A span is a number of nanoseconds.  It is written with the largest unit that leaves a
  whole part, and converted to milliseconds in two ways: whole ones, counted in 64 bits,
  and as a double.
-/
import Wiretap.Decimal.Binary64

namespace Wiretap.Time

/-- A length of time. -/
structure Span where
  nanos : Nat
  deriving DecidableEq, Repr

namespace Span

/-- No time. -/
def zero : Span := ⟨0⟩

/-- The span of so many seconds and nanoseconds. -/
def ofParts (seconds nanos : Nat) : Span := ⟨seconds * 1000000000 + nanos⟩

/-- A count of a unit of `size` nanoseconds, its fraction without trailing zeros. -/
def inUnit (size places : Nat) (suffix : String) (nanos : Nat) : String :=
  let rest := nanos % size
  let digits := Nat.toDigits 10 rest
  let padded := List.replicate (places - digits.length) '0' ++ digits
  let kept := (padded.reverse.dropWhile (· == '0')).reverse
  let fraction := if rest = 0 then "" else "." ++ String.ofList kept
  toString (nanos / size) ++ fraction ++ suffix

/-- The written form, such as `1.5s` or `100µs`. -/
def text (d : Span) : String :=
  if 1000000000 ≤ d.nanos then inUnit 1000000000 9 "s" d.nanos
  else if 1000000 ≤ d.nanos then inUnit 1000000 6 "ms" d.nanos
  else if 1000 ≤ d.nanos then inUnit 1000 3 "µs" d.nanos
  else toString d.nanos ++ "ns"

/-- The whole milliseconds, in a 64-bit count. -/
def wholeMillis (d : Span) : UInt64 := UInt64.ofNat (d.nanos / 1000000)

/-- The milliseconds as a double: the seconds first, then a thousand times those. -/
def millis (d : Span) : Decimal.Binary64 :=
  let whole := Decimal.Binary64.ofNat (d.nanos / 1000000000)
  let part := Decimal.Binary64.ofRatio (d.nanos % 1000000000) 1000000000
  (whole.add part).mul (Decimal.Binary64.ofNat 1000)

end Span

end Wiretap.Time
