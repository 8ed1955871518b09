/-
  Wiretap.Json.Value
  ──────────────────
  **JSON VALUES.**

  Values with the members of each object in order.
-/
import Wiretap.Decimal.Binary64

namespace Wiretap

/-- A JSON value. -/
inductive Json
  | null
  | bool (b : Bool)
  | natural (n : Nat)
  | double (x : Decimal.Binary64)
  | text (s : String)
  | array (items : List Json)
  | object (members : List (String × Json))

namespace Json

/-- A text, or null. -/
def ofOption (s : Option String) : Json :=
  match s with
  | some s => .text s
  | none => .null

end Json

end Wiretap
