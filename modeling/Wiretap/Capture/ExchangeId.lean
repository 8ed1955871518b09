/-
  Wiretap.Capture.ExchangeId
  ──────────────────────────
  **EXCHANGE IDENTIFIERS.**

  An identifier is any text.  The generated ones have three parts: four random characters
  that spread archive directories, a time stamp of twelve hexadecimal digits that orders
  them, and six random characters that tell those of one moment apart.
-/
import Wiretap.Text.Ascii
import Wiretap.Text.Hex
import Wiretap.Text.Quoted

namespace Wiretap

/-- The identifier of an exchange. -/
structure ExchangeId where
  text : String
  deriving DecidableEq, Repr

namespace ExchangeId

/-! ## §1. Properties. -/

/-- A character that can stand in a file name as it is. -/
def isPathSafeChar (c : Char) : Bool := Text.isAsciiAlphanumeric c || c == '-' || c == '_'

/-- Whether the identifier can be a file name as it is. -/
def isPathSafe (id : ExchangeId) : Bool := id.text != "" && id.text.toList.all isPathSafeChar

/-- Whether one identifier comes before another in the order of their bytes. -/
def comesBefore (a b : ExchangeId) : Bool := a.text < b.text

/-- The identifier as it is shown to a reader of diagnostics. -/
def debugText (id : ExchangeId) : String := "ExchangeId(" ++ Text.quoted id.text ++ ")"

/-! ## §2. The time stamp. -/

/-- How many random characters lead a generated identifier. -/
def shardLength : Nat := 4

/-- How many digits the time stamp has. -/
def stampLength : Nat := 12

/-- How many random characters end a generated identifier. -/
def suffixLength : Nat := 6

/-- A text cut behind so many bytes of UTF-8; nothing where that is within a character. -/
def cutAtByte : (count : Nat) → List Char → Option (List Char × List Char)
  | 0, cs => some ([], cs)
  | _ + 1, [] => none
  | n + 1, c :: cs =>
    if n + 1 < c.utf8Size then none
    else (cutAtByte (n + 1 - c.utf8Size) cs).map fun (front, back) => (c :: front, back)
termination_by _ cs => cs.length

/-- The bytes where a generated identifier has its time stamp. -/
def timestampPart (id : ExchangeId) : Option String := do
  let (_, behind) ← cutAtByte shardLength id.text.toList
  let (stamp, _) ← cutAtByte stampLength behind
  return String.ofList stamp

/-! ## §3. Generation. -/

/-- The letters and digits that random characters are drawn from. -/
def alphabet : List Char :=
  "ABCDEFGHIJKLMNOPQRSTUVWXYZabcdefghijklmnopqrstuvwxyz0123456789".toList

/-- The character drawn, in lower case. -/
def drawn (draw : Fin 62) : Char := (alphabet[draw.val]?.getD 'a').toLower

/-- The identifier made of random draws and a time in milliseconds. -/
def generate (shard : Vector (Fin 62) shardLength) (millis : Nat)
    (suffix : Vector (Fin 62) suffixLength) : ExchangeId :=
  ⟨String.ofList (shard.toList.map drawn ++ Text.hexPadded stampLength millis
    ++ suffix.toList.map drawn)⟩

end ExchangeId

end Wiretap
