/-
  Wiretap.Toml.Parser
  ───────────────────
  **READING A TOML DOCUMENT.**

  Values nest to a limited depth; a document is a list of statements, one on a line.
  Whatever is wrong with a text, there is no document then.
-/
import Wiretap.Toml.Scalar
import Wiretap.Toml.Tree

namespace Wiretap.Toml

/-! ## §1. Values. -/

mutual

/-- A value; `depth` says how deep it may nest. -/
def value? : (fuel depth : Nat) → List Char → Option (Toml × List Char)
  | 0, _, _ => none
  | fuel + 1, depth, cs =>
    match cs with
    | [] => none
    | c :: rest =>
      if c == '"' || c == '\'' then (string? cs).map fun (s, rest) => (.text s, rest)
      else if c == '[' then
        if depth = 0 then none
        else
          (items? fuel (depth - 1) [] (skipBlank fuel rest)).map fun (items, rest) =>
            (.array items, rest)
      else if c == Char.ofNat 0x7B then
        if depth = 0 then none
        else
          (members? fuel (depth - 1) [] (skipSpace rest)).map fun (entries, rest) =>
            (.table (valuesOf entries), rest)
      else
        match cs with
        | 't' :: 'r' :: 'u' :: 'e' :: rest => some (.boolean true, rest)
        | 'f' :: 'a' :: 'l' :: 's' :: 'e' :: rest => some (.boolean false, rest)
        | _ => numberOrMoment? cs

/-- The items of an array, behind its opening bracket; `done` holds those read, last first. -/
def items? : (fuel depth : Nat) → (done : List Toml) → List Char → Option ((List Toml) × List Char)
  | 0, _, _, _ => none
  | fuel + 1, depth, done, cs =>
    match cs with
    | ']' :: rest => some (done.reverse, rest)
    | _ =>
      match value? fuel depth cs with
      | none => none
      | some (v, rest) =>
        match skipBlank fuel rest with
        | ',' :: rest => items? fuel depth (v :: done) (skipBlank fuel rest)
        | ']' :: rest => some ((v :: done).reverse, rest)
        | _ => none

/-- The entries of a table on one line, behind its opening brace. -/
def members? : (fuel depth : Nat) → (done : Entries) → List Char → Option (Entries × List Char)
  | 0, _, _, _ => none
  | fuel + 1, depth, done, cs =>
    if done.isEmpty && cs.head? == some (Char.ofNat 0x7D) then some (done, cs.drop 1)
    else
      match key? cs with
      | some (key, '=' :: rest) =>
        match value? fuel depth (skipSpace rest) with
        | none => none
        | some (v, rest) =>
          match done.put (.leaf v) true key with
          | none => none
          | some done =>
            match skipSpace rest with
            | ',' :: rest => members? fuel depth done (skipSpace rest)
            | c :: rest => if c == Char.ofNat 0x7D then some (done, rest) else none
            | [] => none
      | _ => none

end

/-! ## §2. Statements. -/

/-- What has been read of a document. -/
structure Reading where
  entries : Entries
  /-- The table that keys go to. -/
  header : List String

/-- One statement: a header, or a key with its value; the text behind it. -/
def statement? (r : Reading) (cs : List Char) : Option (Reading × List Char) :=
  match cs with
  | '[' :: '[' :: rest =>
    match key? rest with
    | some (path, ']' :: ']' :: rest) =>
      (r.entries.openNext path).map fun entries => (⟨entries, path⟩, rest)
    | _ => none
  | '[' :: rest =>
    match key? rest with
    | some (path, ']' :: rest) =>
      (r.entries.openTable path).map fun entries => (⟨entries, path⟩, rest)
    | _ => none
  | _ =>
    match key? cs with
    | some (key, '=' :: rest) =>
      match value? (2 * cs.length + 4) (maxDepth - 1) (skipSpace rest) with
      | some (v, rest) =>
        (r.entries.putUnder r.header key v).map fun entries => ({ r with entries }, rest)
      | none => none
    | _ => none

/-- Statements up to the end of the text. -/
def statements? : (fuel : Nat) → Reading → List Char → Option Entries
  | 0, _, _ => none
  | fuel + 1, r, cs =>
    match skipBlank (fuel + 1) cs with
    | [] => some r.entries
    | cs =>
      match statement? r cs with
      | none => none
      | some (r, rest) =>
        match endOfStatement? rest with
        | none => none
        | some rest => statements? fuel r rest

/-- The text without a byte order mark at its start. -/
def skipMark : List Char → List Char
  | c :: rest => if c.toNat = 0xFEFF then rest else c :: rest
  | [] => []

/-- The entries of the table that a text writes. -/
def parse? (text : String) : Option (List (String × Toml)) :=
  let cs := skipMark text.toList
  (statements? (cs.length + 1) ⟨[], []⟩ cs).map valuesOf

end Wiretap.Toml
