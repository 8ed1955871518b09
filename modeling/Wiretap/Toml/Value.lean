/-
  Wiretap.Toml.Value
  ──────────────────
  **TOML VALUES.**

  What a TOML document holds.  The entries of a table are in the order of the document.
  Floating-point numbers are told apart from the rest, but their value is not kept: no
  setting is one.
-/

namespace Wiretap

/-- A TOML value. -/
inductive Toml
  | text (s : String)
  | integer (i : Int)
  | float
  | boolean (b : Bool)
  /-- A date, a time or both, in their written form. -/
  | moment (written : String)
  | array (items : List Toml)
  | table (entries : List (String × Toml))
  deriving Inhabited

end Wiretap
