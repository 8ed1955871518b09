/-
  Wiretap.Time.Timestamp
  ──────────────────────
  **POINTS IN TIME.**

  A timestamp is a number of seconds since 1970 in UTC and a number of nanoseconds, of
  which a leap second has up to two thousand million.  It is written as RFC 3339 asks.
-/
import Wiretap.Time.Calendar

namespace Wiretap.Time

/-- A point in time, UTC. -/
structure Timestamp where
  seconds : Int
  nanos : Nat
  deriving DecidableEq, Repr

namespace Timestamp

/-- The day, counted from 1 January 1970. -/
def dayNumber (t : Timestamp) : Int := t.seconds.fdiv 86400

/-- The second within the day. -/
def secondOfDay (t : Timestamp) : Nat := (t.seconds.fmod 86400).toNat

/-- The date of the day. -/
def date (t : Timestamp) : Date := Date.ofDays t.dayNumber

/-- The timestamp with these parts, if the calendar holds it.

More than 999999999 nanoseconds mean a leap second, which only follows second 59. -/
def ofParts? (seconds : Int) (nanos : Nat) : Option Timestamp :=
  let t : Timestamp := ⟨seconds, nanos⟩
  let inCalendar := firstYear ≤ t.date.year && t.date.year ≤ lastYear
  let isLeap := nanos < 2000000000 && t.secondOfDay % 60 == 59
  if inCalendar && (nanos < 1000000000 || isLeap) then some t else none

/-- The fraction of a second in 0, 3, 6 or 9 digits, the fewest that are exact. -/
def fractionText (nanos : Nat) : String :=
  if nanos = 0 then ""
  else if nanos % 1000000 = 0 then "." ++ zeroPadded 3 (nanos / 1000000)
  else if nanos % 1000 = 0 then "." ++ zeroPadded 6 (nanos / 1000)
  else "." ++ zeroPadded 9 nanos

/-- The written form, such as `2024-03-09T12:00:00.123+00:00`. -/
def text (t : Timestamp) : String :=
  let s := t.secondOfDay
  t.date.text ++ "T" ++ zeroPadded 2 (s / 3600) ++ ":" ++ zeroPadded 2 (s / 60 % 60) ++ ":"
    ++ zeroPadded 2 (s % 60 + t.nanos / 1000000000) ++ fractionText (t.nanos % 1000000000)
    ++ "+00:00"

end Timestamp

end Wiretap.Time
