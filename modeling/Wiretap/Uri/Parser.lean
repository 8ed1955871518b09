/-
  Wiretap.Uri.Parser
  ──────────────────
  **READING A URI.**

  `Uri.parse?` takes a text apart into scheme, authority, path and query and checks the
  characters of each.  A text that starts with a slash is a path with a query; one
  without a scheme is an authority and nothing else.
-/
import Wiretap.Text.Ascii
import Wiretap.Uri.Basic

namespace Wiretap.Uri

/-! ## §1. Characters. -/

/-- The most bytes a URI may have. -/
def maxLength : Nat := 65534

/-- The most characters of a scheme. -/
def maxSchemeLength : Nat := 64

/-- The most colons that may be counted one after another in an authority. -/
def maxColons : Nat := 8

/-- A character of a scheme. -/
def isSchemeChar (c : Char) : Bool :=
  Text.isAsciiAlphanumeric c || c == '+' || c == '-' || c == '.' || c == '~'

/-- A character of an authority that has no meaning of its own there. -/
def isAuthorityChar (c : Char) : Bool :=
  Text.isAsciiAlphanumeric c || "!$&'()*+,-.;=_~".toList.contains c

/-- A character that ends an authority. -/
def endsAuthority (c : Char) : Bool := c == '/' || c == '?' || c == '#'

/-- A character of a path. -/
def isPathChar (c : Char) : Bool :=
  let code := c.toNat
  (0x21 ≤ code && code ≤ 0x7E && c != '<' && c != '>' && c != Char.ofNat 0x60) || 0x80 ≤ code

/-- A character of a query. -/
def isQueryChar (c : Char) : Bool :=
  let code := c.toNat
  (0x21 ≤ code && code ≤ 0x7E && c != '"' && c != '<' && c != '>') || 0x80 ≤ code

/-! ## §2. The scheme. -/

/-- What the start of a text says about its scheme. -/
inductive SchemeStart
  /-- No scheme. -/
  | absent
  /-- A scheme, and the text behind `://`. -/
  | found (scheme : String) (rest : List Char)
  /-- A scheme of too many characters. -/
  | tooLong

/-- The text behind a given start, compared without regard to ASCII case. -/
def dropIgnoringCase (start : String) (cs : List Char) : Option (List Char) :=
  if Text.sameIgnoringAsciiCase (String.ofList (cs.take start.length)) start then
    some (cs.drop start.length)
  else none

/-- The scheme of a text. -/
def readScheme (cs : List Char) : SchemeStart :=
  match dropIgnoringCase "http://" cs, dropIgnoringCase "https://" cs with
  | some rest, _ => .found "http" rest
  | none, some rest => .found "https" rest
  | none, none =>
    let name := cs.takeWhile isSchemeChar
    match cs.drop name.length with
    | ':' :: '/' :: '/' :: rest =>
      if maxSchemeLength < name.length then .tooLong else .found (String.ofList name) rest
    | _ => .absent

/-! ## §3. The authority. -/

/-- What has been seen of an authority so far. -/
structure AuthorityScan where
  /-- Colons since the last at-sign or closing bracket. -/
  colons : Nat := 0
  opened : Bool := false
  closed : Bool := false
  /-- A percent sign that no at-sign or closing bracket has justified yet. -/
  percent : Bool := false
  endsInAt : Bool := false

/-- The scan after one more character; nothing where it must not stand. -/
def AuthorityScan.step (s : AuthorityScan) (c : Char) : Option AuthorityScan :=
  let s := { s with endsInAt := c == '@' }
  if c == ':' then if s.colons < maxColons then some { s with colons := s.colons + 1 } else none
  else if c == '[' then if s.percent || s.opened then none else some { s with opened := true }
  else if c == ']' then
    if !s.opened || s.closed then none
    else some { s with closed := true, colons := 0, percent := false }
  else if c == '@' then some { s with colons := 0, percent := false }
  else if c == '%' then some { s with percent := true }
  else if isAuthorityChar c then some s
  else none

/-- Whether an authority may end here. -/
def AuthorityScan.isComplete (s : AuthorityScan) : Bool :=
  s.opened == s.closed && s.colons ≤ 1 && !s.endsInAt && !s.percent

/-- Whether the characters form an authority. -/
def isAuthority (cs : List Char) : Bool :=
  match cs.foldlM AuthorityScan.step {} with
  | some s => s.isComplete
  | none => false

/-! ## §4. Path and query. -/

/-- Path and query of a text; a fragment is cut off. -/
def readTarget (cs : List Char) : Option (String × Option String) :=
  let path := cs.takeWhile fun c => c != '?' && c != '#'
  if !path.all isPathChar then none
  else
    match cs.drop path.length with
    | '?' :: rest =>
      let query := rest.takeWhile (· != '#')
      if query.all isQueryChar then some (String.ofList path, some (String.ofList query)) else none
    | _ => some (String.ofList path, none)

/-! ## §5. The whole. -/

/-- A text that is path and query only. -/
def readPathOnly (cs : List Char) : Option Uri :=
  (readTarget cs).map fun t => ⟨none, none, t.1, t.2⟩

/-- A text that is an authority only. -/
def readAuthorityOnly (cs : List Char) : Option Uri :=
  if !cs.any endsAuthority && isAuthority cs then some ⟨none, some (String.ofList cs), "", none⟩
  else none

/-- A text with a scheme, from behind the scheme on. -/
def readAbsolute (scheme : String) (cs : List Char) : Option Uri :=
  let authority := cs.takeWhile fun c => !endsAuthority c
  if authority.isEmpty || !isAuthority authority then none
  else
    (readTarget (cs.drop authority.length)).map fun t =>
      ⟨some scheme, some (String.ofList authority), t.1, t.2⟩

/-- The URI that a text writes, if it is one. -/
def parse? (text : String) : Option Uri :=
  if maxLength < text.utf8ByteSize then none
  else
    match text.toList with
    | [] => none
    | ['*'] => some ⟨none, none, "*", none⟩
    | '/' :: rest => readPathOnly ('/' :: rest)
    | cs =>
      match readScheme cs with
      | .tooLong => none
      | .found scheme rest => readAbsolute scheme rest
      | .absent => readAuthorityOnly cs

end Wiretap.Uri
