/-
  Wiretap.Json.Printer
  ────────────────────
  **COMPACT JSON TEXT.**

  No spaces; in strings only the quote, the backslash and the controls below U+0020 are
  escaped; a double has the fewest digits that read back and always shows that it is one.
-/
import Wiretap.Decimal.Shortest
import Wiretap.Json.Value
import Wiretap.Text.Hex

namespace Wiretap.Json

/-! ## §1. Strings. -/

/-- The written form of one character inside a string. -/
def charText (c : Char) : List Char :=
  if c = '"' then ['\\', '"']
  else if c = '\\' then ['\\', '\\']
  else if c = '\n' then ['\\', 'n']
  else if c = '\r' then ['\\', 'r']
  else if c = '\t' then ['\\', 't']
  else if c = Char.ofNat 8 then ['\\', 'b']
  else if c = Char.ofNat 12 then ['\\', 'f']
  else if c.toNat < 32 then '\\' :: 'u' :: Text.hexFixed 4 c.toNat
  else [c]

/-- The written form of a string. -/
def stringText (s : String) : List Char := '"' :: s.toList.flatMap charText ++ ['"']

/-! ## §2. Numbers. -/

/-- The power of ten from which on a double is written with an exponent. -/
def plainPlaces : Int := 16

/-- How many zeros may follow the point before an exponent is used instead. -/
def leadingZeros : Int := 4

/-- The written form of an exponent, with its sign. -/
def exponentText (e : Int) : List Char :=
  'e' :: (if e < 0 then '-' else '+') :: Decimal.digitText e.natAbs

/-- The written form of a decimal with at least one digit. -/
def decimalText (x : Decimal.Scientific) : List Char :=
  let digits := Decimal.digitText x.digits
  let places : Int := Int.ofNat digits.length + x.exponent
  if 0 ≤ x.exponent && places ≤ plainPlaces then
    digits ++ List.replicate x.exponent.toNat '0' ++ ['.', '0']
  else if 0 < places && places ≤ plainPlaces then
    digits.take places.toNat ++ '.' :: digits.drop places.toNat
  else if -leadingZeros ≤ places && places ≤ 0 then
    '0' :: '.' :: List.replicate (-places).toNat '0' ++ digits
  else
    match digits with
    | [d] => d :: exponentText (places - 1)
    | d :: rest => d :: '.' :: rest ++ exponentText (places - 1)
    | [] => []

/-- The written form of a double. -/
def doubleText (x : Decimal.Binary64) : List Char := decimalText (Decimal.shortest x)

/-! ## §3. Values. -/

mutual

/-- The written form of a value. -/
def chars : Json → List Char
  | .null => "null".toList
  | .bool true => "true".toList
  | .bool false => "false".toList
  | .natural n => Decimal.digitText n
  | .double x => doubleText x
  | .text s => stringText s
  | .array items => '[' :: itemChars items ++ [']']
  | .object members => Char.ofNat 0x7B :: memberChars members ++ [Char.ofNat 0x7D]

/-- The written forms of items, with commas between them. -/
def itemChars : List Json → List Char
  | [] => []
  | [v] => chars v
  | v :: w :: rest => chars v ++ ',' :: itemChars (w :: rest)

/-- The written forms of members, with commas between them. -/
def memberChars : List (String × Json) → List Char
  | [] => []
  | [(name, v)] => stringText name ++ ':' :: chars v
  | (name, v) :: m :: rest => stringText name ++ ':' :: chars v ++ ',' :: memberChars (m :: rest)

end

/-- The written form of a value. -/
def render (v : Json) : String := String.ofList v.chars

end Wiretap.Json
