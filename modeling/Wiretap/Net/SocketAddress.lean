/-
  Wiretap.Net.SocketAddress
  ─────────────────────────
  **SOCKET ADDRESSES.**

  An IPv4 or IPv6 address with a port.  `SocketAddress.parse?` reads the written forms
  `a.b.c.d:port` and `[v6]:port`, `[v6%scope]:port`; `SocketAddress.text` writes the
  canonical one: of an IPv6 address, the longest run of zero groups as a gap, and the other
  groups in lower case without idle zeros.
-/
import Wiretap.Text.Hex

namespace Wiretap.Net

/-! ## §1. Addresses. -/

/-- Four octets. -/
structure Ipv4 where
  a : Nat
  b : Nat
  c : Nat
  d : Nat
  deriving DecidableEq, Repr

/-- An address that a socket can be bound to. -/
inductive SocketAddress
  /-- An IPv4 address and a port. -/
  | v4 (ip : Ipv4) (port : Nat)
  /-- Eight groups of 16 bits, a scope (0 for none) and a port. -/
  | v6 (groups : List Nat) (scope : Nat) (port : Nat)
  deriving DecidableEq, Repr

/-! ## §2. Reading. -/

/-- What a reader makes of the start of a text: a value and the rest, or nothing. -/
abbrev Reader (α : Type) := List Char → Option (α × List Char)

/-- The value of a digit in a base of up to sixteen. -/
def digitValue? (radix : Nat) (c : Char) : Option Nat :=
  let value :=
    if '0' ≤ c && c ≤ '9' then c.toNat - 48
    else if 'a' ≤ c && c ≤ 'f' then c.toNat - 87
    else if 'A' ≤ c && c ≤ 'F' then c.toNat - 55
    else 99
  if value < radix then some value else none

/-- A number below `bound`, of at most `width` digits; `zeros` admits leading zeros. -/
def readNumber (radix width bound : Nat) (zeros : Bool) : Reader Nat := fun s =>
  let digits := s.takeWhile fun c => (digitValue? radix c).isSome
  let value := digits.foldl (fun n c => n * radix + (digitValue? radix c).getD 0) 0
  if digits.isEmpty || width < digits.length then none
  else if !zeros && digits.head? == some '0' && 1 < digits.length then none
  else if bound ≤ value then none
  else some (value, s.drop digits.length)

/-- A given character. -/
def readChar (c : Char) : Reader Unit
  | d :: rest => if c = d then some ((), rest) else none
  | [] => none

/-- Four octets with points between them. -/
def readIpv4 : Reader Ipv4 := fun s => do
  let (a, s) ← readNumber 10 3 256 false s
  let (_, s) ← readChar '.' s
  let (b, s) ← readNumber 10 3 256 false s
  let (_, s) ← readChar '.' s
  let (c, s) ← readNumber 10 3 256 false s
  let (_, s) ← readChar '.' s
  let (d, s) ← readNumber 10 3 256 false s
  return (⟨a, b, c, d⟩, s)

/-- A reader behind a colon, or without one at the start. -/
def afterColon {α : Type} (first : Bool) (read : Reader α) : Reader α := fun s =>
  if first then read s else (readChar ':' s).bind fun r => read r.2

/-- Up to `limit` groups with colons between them; the last two may be written as an IPv4
address, and the flag says that they were. -/
def readGroups : (limit : Nat) → (first : Bool) → List Char → List Nat × Bool × List Char
  | 0, _, s => ([], false, s)
  | limit + 1, first, s =>
    match (if 0 < limit then afterColon first readIpv4 s else none) with
    | some (ip, rest) => ([ip.a * 256 + ip.b, ip.c * 256 + ip.d], true, rest)
    | none =>
      match afterColon first (readNumber 16 4 65536 true) s with
      | none => ([], false, s)
      | some (group, rest) =>
        let (groups, dotted, rest) := readGroups limit false rest
        (group :: groups, dotted, rest)

/-- The eight groups of an IPv6 address; `::` stands for at least one group of zeros. -/
def readIpv6 : Reader (List Nat) := fun s =>
  let (head, dotted, rest) := readGroups 8 true s
  if head.length = 8 then some (head, rest)
  else if dotted then none
  else do
    let (_, rest) ← readChar ':' rest
    let (_, rest) ← readChar ':' rest
    let (tail, _, rest) := readGroups (7 - head.length) true rest
    return (head ++ List.replicate (8 - head.length - tail.length) 0 ++ tail, rest)

/-- A port. -/
def readPort : Reader Nat := fun s => readNumber 10 s.length 65536 true s

/-- The scope behind a percent sign, 0 where there is none. -/
def readScope : List Char → Nat × List Char
  | '%' :: rest =>
    match readNumber 10 rest.length UInt32.size true rest with
    | some (scope, rest) => (scope, rest)
    | none => (0, '%' :: rest)
  | s => (0, s)

/-- An IPv4 address and a port. -/
def readV4 : Reader SocketAddress := fun s => do
  let (ip, s) ← readIpv4 s
  let (_, s) ← readChar ':' s
  let (port, s) ← readPort s
  return (.v4 ip port, s)

/-- A bracketed IPv6 address and a port. -/
def readV6 : Reader SocketAddress := fun s => do
  let (_, s) ← readChar '[' s
  let (groups, s) ← readIpv6 s
  let (scope, s) := readScope s
  let (_, s) ← readChar ']' s
  let (_, s) ← readChar ':' s
  let (port, s) ← readPort s
  return (.v6 groups scope port, s)

/-- The address that the whole text names. -/
def SocketAddress.parse? (text : String) : Option SocketAddress :=
  match readV4 text.toList, readV6 text.toList with
  | some (address, []), _ => some address
  | _, some (address, []) => some address
  | _, _ => none

/-! ## §3. Writing. -/

/-- Four octets with points between them. -/
def Ipv4.text (ip : Ipv4) : String :=
  toString ip.a ++ "." ++ toString ip.b ++ "." ++ toString ip.c ++ "." ++ toString ip.d

/-- Length and start of the first longest run of zeros, for groups from position `at_` on. -/
def longestZeros : (at_ : Nat) → List Nat → Nat × Nat
  | _, [] => (0, 0)
  | at_, g :: rest =>
    let here := ((g :: rest).takeWhile (· == 0)).length
    let later := longestZeros (at_ + 1) rest
    if here ≠ 0 && later.1 ≤ here then (here, at_) else later

/-- Groups in hexadecimal with colons between them. -/
def groupsText (groups : List Nat) : String :=
  ":".intercalate (groups.map fun g => String.ofList (Text.hexDigits g))

/-- An IPv6 address: an IPv4 one in dotted form, else with the first longest run of at
least two zero groups as `::`. -/
def ipv6Text : List Nat → String
  | [0, 0, 0, 0, 0, 0xFFFF, g, h] => "::ffff:" ++ Ipv4.text ⟨g / 256, g % 256, h / 256, h % 256⟩
  | groups =>
    let (length, start) := longestZeros 0 groups
    if 1 < length then
      groupsText (groups.take start) ++ "::" ++ groupsText (groups.drop (start + length))
    else groupsText groups

/-- The canonical written form. -/
def SocketAddress.text : SocketAddress → String
  | .v4 ip port => ip.text ++ ":" ++ toString port
  | .v6 groups scope port =>
    "[" ++ ipv6Text groups ++ (if scope = 0 then "" else "%" ++ toString scope) ++ "]:"
      ++ toString port

end Wiretap.Net
