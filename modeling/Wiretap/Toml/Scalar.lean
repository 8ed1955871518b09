/-
  Wiretap.Toml.Scalar
  ───────────────────
  **NUMBERS, DATES AND TIMES.**

  Integers of 64 bits in four bases, floating-point numbers below the largest, and dates
  and times of the calendar.
-/
import Wiretap.Decimal.Shortest
import Wiretap.Time.Calendar
import Wiretap.Toml.Lexeme
import Wiretap.Toml.Value

namespace Wiretap.Toml

/-! ## §1. Digits. -/

/-- Digits of a class with single underscores between them; `done` holds those read, last
first. -/
def digitRun (isDigit : Char → Bool) : (done : List Char) → List Char → List Char × List Char
  | done, '_' :: c :: rest =>
    if !done.isEmpty && isDigit c then digitRun isDigit (c :: done) rest
    else (done.reverse, '_' :: c :: rest)
  | done, c :: rest =>
    if isDigit c then digitRun isDigit (c :: done) rest else (done.reverse, c :: rest)
  | done, [] => (done.reverse, [])

/-- The number that digits write in a base. -/
def numberOf (base : Nat) (digits : List Char) : Nat :=
  digits.foldl (fun n c => base * n + (hexValue? c).getD 0) 0

/-- An integer of 64 bits. -/
def int64? (i : Int) : Option Toml :=
  if Int64.minValue.toInt ≤ i && i ≤ Int64.maxValue.toInt then some (.integer i) else none

/-- At least one digit of a base, behind the prefix that names it. -/
def based? (base : Nat) (cs : List Char) : Option (Toml × List Char) := do
  let inBase (c : Char) : Bool :=
    match hexValue? c with
    | some v => v < base
    | none => false
  let (digits, rest) := digitRun inBase [] cs
  if digits.isEmpty then none
  else
    let value ← int64? (numberOf base digits)
    return (value, rest)

/-! ## §2. Integers and floating-point numbers. -/

/-- A sign, and whether it is a minus. -/
def sign : List Char → Option Char × List Char
  | '+' :: rest => (some '+', rest)
  | '-' :: rest => (some '-', rest)
  | cs => (none, cs)

/-- The digits of a decimal integer: without leading zeros. -/
def wholeDigits? (cs : List Char) : Option ((List Char) × List Char) :=
  match cs with
  | '0' :: rest => some (['0'], rest)
  | _ =>
    let (digits, rest) := digitRun Char.isDigit [] cs
    if digits.isEmpty then none else some (digits, rest)

/-- At least one digit. -/
def someDigits? (cs : List Char) : Option ((List Char) × List Char) :=
  let (digits, rest) := digitRun Char.isDigit [] cs
  if digits.isEmpty then none else some (digits, rest)

/-- The fraction of a number, behind its point; none where there is no point. -/
def fraction? : List Char → Option ((Option (List Char)) × List Char)
  | '.' :: rest => (someDigits? rest).map fun (digits, rest) => (some digits, rest)
  | cs => some (none, cs)

/-- The exponent of a number; none where there is no mark for it. -/
def exponent? (cs : List Char) : Option ((Option Int) × List Char) :=
  let marked (rest : List Char) : Option ((Option Int) × List Char) :=
    let (s, rest) := sign rest
    (someDigits? rest).map fun (digits, rest) =>
      let n : Int := numberOf 10 digits
      (some (if s == some '-' then -n else n), rest)
  match cs with
  | 'e' :: rest => marked rest
  | 'E' :: rest => marked rest
  | _ => some (none, cs)

/-- The least number of digits before the point of numbers that are all too large. -/
def hugePlaces : Int := 400

/-- Whether a decimal rounds to a number beyond the largest double. -/
def isTooLarge (whole fraction : List Char) (exponent : Int) : Bool :=
  let digits := numberOf 10 (whole ++ fraction)
  let scale := exponent - Int.ofNat fraction.length
  if digits = 0 then false
  else
    let places := Int.ofNat (Decimal.digitCount digits) + scale
    if hugePlaces < places then true
    else if places < -hugePlaces then false
    else
      let (up, down) := Decimal.tenPower scale
      Decimal.Binary64.overflow * down ≤ digits * up

/-- A decimal number. -/
def decimal? (cs : List Char) : Option (Toml × List Char) := do
  let (s, rest) := sign cs
  let (whole, rest) ← wholeDigits? rest
  let (fraction, rest) ← fraction? rest
  let (exponent, rest) ← exponent? rest
  match fraction, exponent with
  | none, none =>
    let n : Int := numberOf 10 whole
    let value ← int64? (if s == some '-' then -n else n)
    return (value, rest)
  | _, _ =>
    if s != some '-' && isTooLarge whole (fraction.getD []) (exponent.getD 0) then none
    else return (.float, rest)

/-- A number. -/
def number? (cs : List Char) : Option (Toml × List Char) :=
  match cs with
  | '0' :: 'x' :: rest => based? 16 rest
  | '0' :: 'o' :: rest => based? 8 rest
  | '0' :: 'b' :: rest => based? 2 rest
  | _ =>
    match (sign cs).2 with
    | 'i' :: 'n' :: 'f' :: rest => some (.float, rest)
    | 'n' :: 'a' :: 'n' :: rest => some (.float, rest)
    | _ => decimal? cs

/-! ## §3. Dates and times. -/

/-- A number of exactly `count` digits. -/
def fixedDigits? (count : Nat) (cs : List Char) : Option (Nat × List Char) :=
  let digits := cs.take count
  if digits.length = count && digits.all Char.isDigit then
    some (numberOf 10 digits, cs.drop count)
  else none

/-- The text behind a character. -/
def expect? (c : Char) : List Char → Option (List Char)
  | d :: rest => if d = c then some rest else none
  | [] => none

/-- A date, in its written form. -/
def date? (cs : List Char) : Option (String × List Char) := do
  let (year, rest) ← fixedDigits? 4 cs
  let rest ← expect? '-' rest
  let (month, rest) ← fixedDigits? 2 rest
  let rest ← expect? '-' rest
  let (day, rest) ← fixedDigits? 2 rest
  let date ← Time.Date.ofParts? year month day
  return (date.text, rest)

/-- The fraction of a second: nine digits count, and trailing zeros are not written. -/
def secondFraction? : List Char → Option (String × List Char)
  | '.' :: rest =>
    let digits := rest.takeWhile Char.isDigit
    if digits.isEmpty then none
    else
      let kept := ((digits.take 9).reverse.dropWhile (· == '0')).reverse
      some (if kept.isEmpty then "" else "." ++ String.ofList kept, rest.drop digits.length)
  | cs => some ("", cs)

/-- A time of day, in its written form. -/
def time? (cs : List Char) : Option (String × List Char) := do
  let (hour, rest) ← fixedDigits? 2 cs
  let rest ← expect? ':' rest
  let (minute, rest) ← fixedDigits? 2 rest
  let rest ← expect? ':' rest
  let (second, rest) ← fixedDigits? 2 rest
  if 23 < hour || 59 < minute || 60 < second then none
  else
    let (fraction, rest) ← secondFraction? rest
    return (Time.zeroPadded 2 hour ++ ":" ++ Time.zeroPadded 2 minute ++ ":"
      ++ Time.zeroPadded 2 second ++ fraction, rest)

/-- The offset of a time from universal time, in its written form, in which one of zero has
a plus sign; empty where there is none. -/
def offset? (cs : List Char) : Option (String × List Char) := do
  match cs with
  | 'Z' :: rest => return ("Z", rest)
  | 'z' :: rest => return ("Z", rest)
  | _ =>
    match sign cs with
    | (none, _) => return ("", cs)
    | (some s, rest) =>
      let (hour, rest) ← fixedDigits? 2 rest
      let rest ← expect? ':' rest
      let (minute, rest) ← fixedDigits? 2 rest
      if 23 < hour || 59 < minute then none
      else
        let shown := if hour = 0 && minute = 0 then '+' else s
        return (String.ofList [shown] ++ Time.zeroPadded 2 hour ++ ":"
          ++ Time.zeroPadded 2 minute, rest)

/-- Whether a character can stand between a date and a time. -/
def isTimeMark (c : Char) : Bool := c == 'T' || c == 't' || c == ' '

/-- A date, a date with a time, or a time. -/
def moment? (cs : List Char) : Option (Toml × List Char) := do
  match date? cs with
  | none =>
    let (time, rest) ← time? cs
    return (.moment time, rest)
  | some (date, rest) =>
    match rest with
    | [] => return (.moment date, [])
    | c :: behind =>
      if isTimeMark c && (behind.head?.map Char.isDigit).getD false then
        let (time, rest) ← time? behind
        let (offset, rest) ← offset? rest
        return (.moment (date ++ "T" ++ time ++ offset), rest)
      else return (.moment date, rest)

/-- Whether a text starts like a date or a time: digits, and the mark behind them. -/
def startsMoment (cs : List Char) : Bool :=
  let digits := cs.takeWhile Char.isDigit
  match cs.drop digits.length with
  | '-' :: _ => digits.length == 4
  | ':' :: _ => digits.length == 2
  | _ => false

/-- A number, a date or a time. -/
def numberOrMoment? (cs : List Char) : Option (Toml × List Char) :=
  if startsMoment cs then moment? cs else number? cs

end Wiretap.Toml
