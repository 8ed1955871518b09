/-
  Wiretap.Text.Hex
  ────────────────
  **HEXADECIMAL TEXT.**

  Lower-case hexadecimal digits of a number, with and without a least width.
-/

namespace Wiretap.Text

/-- The lower-case digit of a value below sixteen. -/
def hexDigit (n : Nat) : Char :=
  if n < 10 then Char.ofNat (48 + n) else Char.ofNat (87 + n)

/-- The digits of a number, most significant first, without leading zeros; zero has one digit. -/
def hexDigits (n : Nat) : List Char :=
  if n < 16 then [hexDigit n] else hexDigits (n / 16) ++ [hexDigit (n % 16)]
termination_by n

/-- Exactly the last `width` digits of a number. -/
def hexFixed : (width : Nat) → Nat → List Char
  | 0, _ => []
  | w + 1, n => hexFixed w (n / 16) ++ [hexDigit (n % 16)]

/-- The digits of a number, filled with zeros up to `width`. -/
def hexPadded (width : Nat) (n : Nat) : List Char :=
  if n < Nat.pow 16 width then hexFixed width n else hexDigits n

end Wiretap.Text
