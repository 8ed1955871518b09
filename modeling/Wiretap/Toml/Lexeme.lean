/-
  Wiretap.Toml.Lexeme
  ───────────────────
  **SPACE, COMMENTS, STRINGS AND KEYS.**

  Readers take a piece off the front of the text and give it with the rest, or nothing
  where the text has no such piece.
-/
import Wiretap.Text.Ascii

namespace Wiretap.Toml

/-! ## §1. Space and comments. -/

/-- A space or a tab. -/
def isSpace (c : Char) : Bool := c == ' ' || c == '\t'

/-- The text without leading spaces and tabs. -/
def skipSpace (cs : List Char) : List Char := cs.dropWhile isSpace

/-- The text behind a line end, if it starts with one. -/
def lineEnd? : List Char → Option (List Char)
  | '\n' :: rest => some rest
  | '\r' :: '\n' :: rest => some rest
  | _ => none

/-- A character that may stand in a comment. -/
def isCommentChar (c : Char) : Bool := c == '\t' || (32 ≤ c.toNat && c.toNat != 127)

/-- The text without a leading comment. -/
def skipComment : List Char → List Char
  | '#' :: rest => rest.dropWhile isCommentChar
  | cs => cs

/-- What must follow a statement: space, a comment, and a line end or the end of the text. -/
def endOfStatement? (cs : List Char) : Option (List Char) :=
  match skipComment (skipSpace cs) with
  | [] => some []
  | rest => lineEnd? rest

/-- The text without leading space, comments and line ends; `fuel` bounds their number. -/
def skipBlank : (fuel : Nat) → List Char → List Char
  | 0, cs => cs
  | fuel + 1, cs =>
    let rest := skipComment (skipSpace cs)
    match lineEnd? rest with
    | some rest => skipBlank fuel rest
    | none => rest

/-! ## §2. Strings. -/

/-- A character that may stand in any string as it is. -/
def isStringChar (c : Char) : Bool := c == '\t' || (32 ≤ c.toNat && c.toNat != 127)

/-- The value of a hexadecimal digit. -/
def hexValue? (c : Char) : Option Nat :=
  if c.isDigit then some (c.toNat - 48)
  else if 'a' ≤ c && c ≤ 'f' then some (c.toNat - 87)
  else if 'A' ≤ c && c ≤ 'F' then some (c.toNat - 55)
  else none

/-- A character given by exactly `count` hexadecimal digits. -/
def hexChar? (count : Nat) (cs : List Char) : Option (Char × List Char) := do
  let digits := cs.take count
  if digits.length < count then none
  else
    let values ← digits.mapM hexValue?
    let code := values.foldl (fun n d => 16 * n + d) 0
    if code.isValidChar then some (Char.ofNat code, cs.drop count) else none

/-- The character that an escape stands for, behind the backslash. -/
def escaped? : List Char → Option (Char × List Char)
  | 'b' :: rest => some (Char.ofNat 8, rest)
  | 't' :: rest => some ('\t', rest)
  | 'n' :: rest => some ('\n', rest)
  | 'f' :: rest => some (Char.ofNat 12, rest)
  | 'r' :: rest => some ('\r', rest)
  | '"' :: rest => some ('"', rest)
  | '\\' :: rest => some ('\\', rest)
  | 'u' :: rest => hexChar? 4 rest
  | 'U' :: rest => hexChar? 8 rest
  | _ => none

/-- A string on one line, behind its opening quote; `done` holds what was read, last first. -/
def basicString : (fuel : Nat) → (done : List Char) → List Char → Option (String × List Char)
  | 0, _, _ => none
  | _ + 1, _, [] => none
  | _ + 1, done, '"' :: rest => some (String.ofList done.reverse, rest)
  | fuel + 1, done, '\\' :: rest => do
    let (c, rest) ← escaped? rest
    basicString fuel (c :: done) rest
  | fuel + 1, done, c :: rest => if isStringChar c then basicString fuel (c :: done) rest else none

/-- A string on one line without escapes, behind its opening quote. -/
def literalString (cs : List Char) : Option (String × List Char) :=
  let content := cs.takeWhile fun c => c != '\'' && isStringChar c
  match cs.drop content.length with
  | '\'' :: rest => some (String.ofList content, rest)
  | _ => none

/-- The text without a line end at its start. -/
def skipLineEnd (cs : List Char) : List Char := (lineEnd? cs).getD cs

/-- The text without leading space and line ends. -/
def skipLines : List Char → List Char
  | '\r' :: '\n' :: rest => skipLines rest
  | c :: rest => if isSpace c || c == '\n' then skipLines rest else c :: rest
  | [] => []

/-- The text behind a backslash that ends a line: without the space and line ends up to
the next character. -/
def joinedLine? (cs : List Char) : Option (List Char) := (lineEnd? (skipSpace cs)).map skipLines

/-- What a run of quotes means inside a string over several lines: whether it closes the
string, and how many of its quotes belong to the content. -/
def quoteRun (count : Nat) : Bool × Nat :=
  if count < 3 then (false, count) else (true, min count 5 - 3)

/-- A string over several lines, behind its opening quotes and a first line end.  `quote` is
the kind of quote; escapes are read when `escapes` is set. -/
def longString (quote : Char) (escapes : Bool) :
    (fuel : Nat) → (done : List Char) → List Char → Option (String × List Char)
  | 0, _, _ => none
  | _ + 1, _, [] => none
  | fuel + 1, done, c :: rest =>
    if c = quote then
      let run := (c :: rest).takeWhile (· == quote)
      let (closes, content) := quoteRun run.length
      let done := List.replicate content quote ++ done
      if closes then some (String.ofList done.reverse, (c :: rest).drop (3 + content))
      else longString quote escapes fuel done ((c :: rest).drop content)
    else if escapes && c == '\\' then
      match joinedLine? rest with
      | some rest => longString quote escapes fuel done rest
      | none =>
        match escaped? rest with
        | some (e, rest) => longString quote escapes fuel (e :: done) rest
        | none => none
    else
      match lineEnd? (c :: rest) with
      | some rest => longString quote escapes fuel ('\n' :: done) rest
      | none => if isStringChar c then longString quote escapes fuel (c :: done) rest else none

/-- A string of any kind. -/
def string? (cs : List Char) : Option (String × List Char) :=
  let fuel := cs.length + 1
  match cs with
  | '"' :: '"' :: '"' :: rest => longString '"' true fuel [] (skipLineEnd rest)
  | '\'' :: '\'' :: '\'' :: rest => longString '\'' false fuel [] (skipLineEnd rest)
  | '"' :: rest => basicString fuel [] rest
  | '\'' :: rest => literalString rest
  | _ => none

/-! ## §3. Keys. -/

/-- A character of a key without quotes. -/
def isKeyChar (c : Char) : Bool := Text.isAsciiAlphanumeric c || c == '_' || c == '-'

/-- One part of a key. -/
def keyPart? (cs : List Char) : Option (String × List Char) :=
  match cs with
  | '"' :: rest => basicString (cs.length + 1) [] rest
  | '\'' :: rest => literalString rest
  | _ =>
    let name := cs.takeWhile isKeyChar
    if name.isEmpty then none else some (String.ofList name, cs.drop name.length)

/-- The parts of a key, with dots between them and space around them. -/
def keyParts? : (fuel : Nat) → List Char → Option ((List String) × List Char)
  | 0, _ => none
  | fuel + 1, cs =>
    match keyPart? (skipSpace cs) with
    | none => none
    | some (part, rest) =>
      match skipSpace rest with
      | '.' :: rest =>
        match keyParts? fuel rest with
        | none => none
        | some (parts, rest) => some (part :: parts, rest)
      | rest => some ([part], rest)

/-- How deep keys and values may be nested. -/
def maxDepth : Nat := 80

/-- A key, with the space behind it. -/
def key? (cs : List Char) : Option ((List String) × List Char) :=
  match keyParts? (cs.length + 1) cs with
  | some (parts, rest) => if parts.length < maxDepth then some (parts, rest) else none
  | none => none

end Wiretap.Toml
