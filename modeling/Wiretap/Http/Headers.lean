/-
  Wiretap.Http.Headers
  ────────────────────
  **HEADER FIELDS.**

  The fields of one message, grouped by name: names in the order in which they first
  appeared, and under each name its values in the order in which they were added.  Names
  are in lower case; values are bytes.
-/
import Wiretap.Bytes
import Wiretap.Text.Ascii

namespace Wiretap.Http

/-! ## §1. Names and values. -/

/-- A character of a token, the form of field names and methods. -/
def isTokenChar (c : Char) : Bool :=
  Text.isAsciiAlphanumeric c || c == Char.ofNat 0x60 || "!#$%&'*+-.^_|~".toList.contains c

/-- The most bytes of a field name. -/
def maxFieldName : Nat := 65535

/-- Whether a text is a token. -/
def isToken (s : String) : Bool := s != "" && s.toList.all isTokenChar

/-- A byte that a field value may hold. -/
def isValueByte (b : UInt8) : Bool := (32 ≤ b && b != 127) || b == 9

/-- A byte that shows as text: printable ASCII or a tab. -/
def isTextByte (b : UInt8) : Bool := (32 ≤ b && b ≤ 126) || b == 9

/-- The value as text, where every byte of it shows as text. -/
def readable? (value : Bytes) : Option String :=
  if value.all isTextByte then some (String.ofList (value.map fun b => Char.ofNat b.toNat))
  else none

/-- What can be wrong with a field. -/
inductive FieldError
  | invalidName
  | invalidValue
  deriving DecidableEq, Repr

/-- The wording of a fault. -/
def FieldError.message : FieldError → String
  | .invalidName => "invalid HTTP header name"
  | .invalidValue => "failed to parse header value"

/-! ## §2. Field lists. -/

/-- Names with their values. -/
structure Headers where
  groups : List (String × List Bytes)
  deriving DecidableEq, Repr

namespace Headers

/-- No fields. -/
def empty : Headers := ⟨[]⟩

/-- Adds a value under a name in lower case. -/
def appendTo (name : String) (value : Bytes) :
    List (String × List Bytes) → List (String × List Bytes)
  | [] => [(name, [value])]
  | (n, values) :: rest =>
    if n = name then (n, values ++ [value]) :: rest else (n, values) :: appendTo name value rest

/-- Adds a field; the name may be in any case. -/
def append (h : Headers) (name : String) (value : Bytes) : Except FieldError Headers :=
  if !isToken name || maxFieldName < name.utf8ByteSize then .error .invalidName
  else if !value.all isValueByte then .error .invalidValue
  else .ok ⟨appendTo (Text.asciiLower name) value h.groups⟩

/-- The fields added one after another. -/
def ofFields (fields : List (String × Bytes)) : Except FieldError Headers :=
  fields.foldlM (fun h f => h.append f.1 f.2) empty

/-- The fields in order, each with its name. -/
def fields (h : Headers) : List (String × Bytes) :=
  h.groups.flatMap fun g => g.2.map fun value => (g.1, value)

/-- The values under a name in lower case. -/
def values (h : Headers) (name : String) : List Bytes :=
  ((h.groups.find? fun g => g.1 == name).map (·.2)).getD []

/-- The first value under a name in lower case. -/
def first? (h : Headers) (name : String) : Option Bytes := (h.values name).head?

/-- The first value under a name, where it is readable. -/
def text? (h : Headers) (name : String) : Option String := (h.first? name).bind readable?

/-- Puts one value in the place of all under a name; a new name comes last. -/
def replace (h : Headers) (name : String) (value : Bytes) : Headers :=
  if h.groups.any fun g => g.1 == name then
    ⟨h.groups.map fun g => if g.1 == name then (name, [value]) else g⟩
  else ⟨h.groups ++ [(name, [value])]⟩

end Headers

end Wiretap.Http
