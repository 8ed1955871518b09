/-
  Wiretap.Proofs.HostNames
  ────────────────────────
  **ROUTES FOR ONE HOST.**

  A host is a registered name, an IPv4 address, or an IPv6 address in brackets.  Names and
  IPv4 addresses have no colon, so what stands before the first colon is the host, and a route
  for it ignores case and port.  An IPv6 address has colons itself: cut at the first of them
  it is no host any more, and a route for it is never taken:

    • `Uri.Host`                              — the hosts that a URI can name, with their texts,
    • `Route.withoutPort_eq_iff`              — what stands in front of the first colon,
    • `AsksFor.plain`                         — the host of a request that names one,
    • `Route.matchesHost_lowercase_iff`       — what a route for a host compares,
    • `Route.hostRoute_ignores_case_and_port` — when a route for a host is taken.
-/
import Mathlib.Data.List.TakeWhile
import Wiretap.Proofs.Characters
import Wiretap.Route.Table

namespace Wiretap

/-! ## §1. Hosts. -/

namespace Uri

/-- A character of a registered name: an unreserved one, or a delimiter within it. -/
def isNameChar (c : Char) : Bool :=
  Text.isAsciiAlphanumeric c || "-._~!$&'()*+,;=".toList.contains c

/-- A hexadecimal digit in either case. -/
def isHexChar (c : Char) : Bool := c.isDigit || "abcdefABCDEF".toList.contains c

/-- A part of a registered name: a character, or a percent sign with the digits of a byte. -/
inductive NamePart
  | plain (c : Char) (hc : isNameChar c = true)
  | encoded (high low : Char) (hhigh : isHexChar high = true) (hlow : isHexChar low = true)

def NamePart.chars : NamePart → List Char
  | .plain c _ => [c]
  | .encoded high low _ _ => ['%', high, low]

/-- The octets of an IPv4 address. -/
structure Octets where
  a : Fin 256
  b : Fin 256
  c : Fin 256
  d : Fin 256

def Octets.chars (o : Octets) : List Char := (Net.Ipv4.text ⟨o.a, o.b, o.c, o.d⟩).toList

/-- A group of an IPv6 address: up to four hexadecimal digits. -/
structure Group where
  digits : List Char
  nonempty : digits ≠ []
  short : digits.length ≤ 4
  hex : digits.all isHexChar = true

/-- Groups of an IPv6 address; an IPv4 address may stand for the last two. -/
structure Groups where
  groups : List Group
  last : Option Octets

namespace Groups

/-- How many groups there are. -/
def size (g : Groups) : Nat := g.groups.length + if g.last.isSome then 2 else 0

/-- What stands between the colons. -/
def pieces (g : Groups) : List (List Char) :=
  g.groups.map (·.digits) ++ g.last.toList.map Octets.chars

end Groups

/-- Pieces with a colon between any two. -/
def withColons : List (List Char) → List Char
  | [] => []
  | [piece] => piece
  | piece :: next :: rest => piece ++ ':' :: withColons (next :: rest)

/-- An IPv6 address: eight groups, or fewer with a gap for the others. -/
inductive Ipv6
  | full (groups : Groups) (h : groups.size = 8)
  | gapped (front : List Group) (back : Groups) (h : front.length + back.size ≤ 7)

def Ipv6.chars : Ipv6 → List Char
  | .full groups _ => withColons groups.pieces
  | .gapped front back _ =>
    withColons (front.map (·.digits)) ++ ':' :: ':' :: withColons back.pieces

/-- A host that a URI can name. -/
inductive Host
  | name (parts : List NamePart)
  | ipv4 (octets : Octets)
  | ipv6 (address : Ipv6)

namespace Host

/-- The host as it is written. -/
def text : Host → String
  | .name parts => String.ofList (parts.flatMap NamePart.chars)
  | .ipv4 octets => String.ofList octets.chars
  | .ipv6 address => String.ofList ('[' :: (address.chars ++ [']']))

/-- Whether a host stands in brackets. -/
def isLiteral : Host → Bool
  | .ipv6 _ => true
  | _ => false

end Host

/-! ## §2. The characters of a host. -/

variable {c : Char} {pieces : List (List Char)}

/-- The characters that tell a host from what stands next to it. -/
def separators : List Char := ['@', '[', ':']

/-- Whether a text has none of them. -/
def Plain (text : String) : Prop := ∀ mark ∈ separators, mark ∉ text.toList

/-- A character of ASCII that is no separator. -/
def IsInner (c : Char) : Prop := c.toNat < 128 ∧ c ∉ separators

instance (c : Char) : Decidable (IsInner c) := inferInstanceAs (Decidable (_ ∧ _))

theorem isInner_of_isAlphanum (h : c.isAlphanum = true) : IsInner c := by
  have hrange : (65 ≤ c.toNat ∧ c.toNat ≤ 90) ∨ (97 ≤ c.toNat ∧ c.toNat ≤ 122)
      ∨ (48 ≤ c.toNat ∧ c.toNat ≤ 57) := by
    rcases Bool.or_eq_true_iff.mp h with hletter | hdigit
    · rcases Bool.or_eq_true_iff.mp hletter with hupper | hlower
      · exact Or.inl (of_decide_eq_true hupper)
      · obtain ⟨hlow, hhigh⟩ := Bool.and_eq_true_iff.mp hlower
        exact Or.inr (Or.inl ⟨of_decide_eq_true hlow, of_decide_eq_true hhigh⟩)
    · obtain ⟨hlow, hhigh⟩ := Bool.and_eq_true_iff.mp hdigit
      exact Or.inr (Or.inr ⟨of_decide_eq_true hlow, of_decide_eq_true hhigh⟩)
  refine ⟨by omega, fun hmark => ?_⟩
  simp only [separators, List.mem_cons, List.not_mem_nil, or_false] at hmark
  rcases hmark with rfl | rfl | rfl <;> exact absurd hrange (by decide)

theorem isInner_of_isDigit (h : c.isDigit = true) : IsInner c :=
  isInner_of_isAlphanum (Bool.or_eq_true_iff.mpr (Or.inr h))

theorem isInner_of_isNameChar (h : isNameChar c = true) : IsInner c := by
  have hmarks : "-._~!$&'()*+,;=".toList.all (fun c => IsInner c) = true := by decide
  simp only [isNameChar, Bool.or_eq_true, List.contains_iff_mem] at h
  rcases h with halnum | hmark
  · exact isInner_of_isAlphanum halnum
  · exact of_decide_eq_true (List.all_eq_true.mp hmarks c hmark)

theorem isInner_of_isHexChar (h : isHexChar c = true) : IsInner c := by
  have hletters : "abcdefABCDEF".toList.all (fun c => IsInner c) = true := by decide
  simp only [isHexChar, Bool.or_eq_true, List.contains_iff_mem] at h
  rcases h with hdigit | hletter
  · exact isInner_of_isDigit hdigit
  · exact of_decide_eq_true (List.all_eq_true.mp hletters c hletter)

theorem NamePart.isInner {part : NamePart} (h : c ∈ part.chars) : IsInner c := by
  cases part with
  | plain c' hc =>
      obtain rfl := List.mem_singleton.mp h
      exact isInner_of_isNameChar hc
  | encoded high low hhigh hlow =>
      simp only [chars, List.mem_cons, List.not_mem_nil, or_false] at h
      rcases h with rfl | rfl | rfl
      · decide
      · exact isInner_of_isHexChar hhigh
      · exact isInner_of_isHexChar hlow

theorem isInner_of_mem_text {ip : Net.Ipv4} (h : c ∈ ip.text.toList) : IsInner c := by
  have hdigit (n : Nat) (hc : c ∈ (toString n).toList) : IsInner c :=
    isInner_of_isDigit (Text.isDigit_of_mem_toString hc)
  have hpoint (hc : c ∈ ".".toList) : IsInner c := by
    obtain rfl : c = '.' := by simpa using hc
    decide
  simp only [Net.Ipv4.text, String.toList_append, List.mem_append] at h
  rcases h with (((((h | h) | h) | h) | h) | h) | h
  · exact hdigit ip.a h
  · exact hpoint h
  · exact hdigit ip.b h
  · exact hpoint h
  · exact hdigit ip.c h
  · exact hpoint h
  · exact hdigit ip.d h

theorem Groups.isInner {g : Groups} {piece : List Char} (hp : piece ∈ g.pieces) (h : c ∈ piece) :
    IsInner c := by
  rcases List.mem_append.mp hp with hgroup | hlast
  · obtain ⟨group, -, rfl⟩ := List.mem_map.mp hgroup
    exact isInner_of_isHexChar (List.all_eq_true.mp group.hex c h)
  · obtain ⟨octets, -, rfl⟩ := List.mem_map.mp hlast
    exact isInner_of_mem_text h

theorem mem_withColons (h : c ∈ withColons pieces) : c = ':' ∨ ∃ piece ∈ pieces, c ∈ piece := by
  fun_induction withColons pieces with
  | case1 => cases h
  | case2 piece => exact Or.inr ⟨piece, List.mem_singleton_self piece, h⟩
  | case3 piece next rest ih =>
      rcases List.mem_append.mp h with hfirst | hrest
      · exact Or.inr ⟨piece, List.mem_cons_self, hfirst⟩
      · rcases List.mem_cons.mp hrest with hcolon | hrest
        · exact Or.inl hcolon
        · exact (ih hrest).imp_right fun ⟨p, hp, hc⟩ => ⟨p, List.mem_cons_of_mem _ hp, hc⟩

theorem colon_mem_withColons (h : 2 ≤ pieces.length) : ':' ∈ withColons pieces := by
  fun_cases withColons pieces with
  | case1 => cases h
  | case2 piece => exact absurd h (by simp)
  | case3 piece next rest => simp

/-- An address consists of its groups and of colons. -/
theorem Ipv6.isInner_or {address : Ipv6} (h : c ∈ address.chars) : c = ':' ∨ IsInner c := by
  have hgroups : ∀ g : Groups, c ∈ withColons g.pieces → c = ':' ∨ IsInner c := fun g hc =>
    (mem_withColons hc).imp_right fun ⟨_, hp, hc⟩ => g.isInner hp hc
  cases address with
  | full groups hsize => exact hgroups groups h
  | gapped front back hsize =>
      rcases List.mem_append.mp h with hfront | hback
      · -- the groups before the gap are groups without an IPv4 address
        refine hgroups ⟨front, none⟩ ?_
        simpa [Groups.pieces] using hfront
      · rcases List.mem_cons.mp hback with hcolon | hback
        · exact Or.inl hcolon
        · rcases List.mem_cons.mp hback with hcolon | hback
          · exact Or.inl hcolon
          · exact hgroups back hback

/-- An address has a colon. -/
theorem Ipv6.colon_mem (address : Ipv6) : ':' ∈ address.chars := by
  cases address with
  | full groups hsize =>
      refine colon_mem_withColons ?_
      simp only [Groups.size] at hsize
      simp only [Groups.pieces, List.length_append, List.length_map]
      split at hsize <;> omega
  | gapped front back hsize => simp [chars]

namespace Host

variable {host : Host}

theorem isInner (hplain : host.isLiteral = false) (h : c ∈ host.text.toList) : IsInner c := by
  cases host with
  | name parts =>
      rw [text, String.toList_ofList] at h
      obtain ⟨part, -, hc⟩ := List.mem_flatMap.mp h
      exact part.isInner hc
  | ipv4 octets =>
      rw [text, String.toList_ofList] at h
      exact isInner_of_mem_text h
  | ipv6 address => cases hplain

/-- A host without brackets has no separators. -/
theorem plain (hplain : host.isLiteral = false) : Plain host.text :=
  fun _ hmark hmem => (isInner hplain hmem).2 hmark

/-- A host in brackets starts with one and has a colon. -/
theorem literal (hliteral : host.isLiteral = true) :
    ∃ rest, host.text.toList = '[' :: rest ∧ ':' ∈ rest := by
  cases host with
  | name parts => cases hliteral
  | ipv4 octets => cases hliteral
  | ipv6 address =>
      refine ⟨address.chars ++ [']'], String.toList_ofList, ?_⟩
      exact List.mem_append_left _ address.colon_mem

/-- Every host is ASCII and has no at-sign. -/
theorem ascii (h : c ∈ host.text.toList) : c.toNat < 128 ∧ c ≠ '@' := by
  have hinner (hc : IsInner c) : c.toNat < 128 ∧ c ≠ '@' := by
    refine ⟨hc.1, ?_⟩
    rintro rfl
    exact hc.2 (by decide)
  cases host with
  | name parts => exact hinner (isInner rfl h)
  | ipv4 octets => exact hinner (isInner rfl h)
  | ipv6 address =>
      rw [text, String.toList_ofList] at h
      rcases List.mem_cons.mp h with rfl | h
      · decide
      · rcases List.mem_append.mp h with haddress | hclose
        · rcases address.isInner_or haddress with rfl | hc
          · decide
          · exact hinner hc
        · obtain rfl := List.mem_singleton.mp hclose
          decide

end Host

end Uri

/-! ## §3. Requests for a host. -/

variable {uri : Uri} {headers : Http.Headers} {host named : String}

/-- Whether a text is a host, alone or with a port. -/
def Names (text host : String) : Prop :=
  text = host ∨ ∃ port : String, port.toList.all Char.isDigit = true ∧ text = host ++ ":" ++ port

/-- Whether a request is for a host: its field names the host, or where there is no readable
one, its URI does. -/
def AsksFor (uri : Uri) (headers : Http.Headers) (host : String) : Prop :=
  ∃ text, Names text host ∧ (headers.text? "host" = some text
    ∨ headers.text? "host" = none ∧ uri.authority = some text)

theorem Names.split {text : String} (h : Names text host) :
    ∃ rest, text.toList = host.toList ++ rest
      ∧ (rest = [] ∨ ∃ port, rest = ':' :: port ∧ ∀ c ∈ port, c.isDigit = true) := by
  rcases h with rfl | ⟨port, hport, rfl⟩
  · exact ⟨[], by simp, Or.inl rfl⟩
  · exact ⟨':' :: port.toList, by simp, Or.inr ⟨_, rfl, List.all_eq_true.mp hport⟩⟩

/-- With a port there is still no at-sign. -/
theorem Names.at_not_mem {text : String} (h : Names text host) (hat : '@' ∉ host.toList) :
    '@' ∉ text.toList := by
  obtain ⟨rest, htext, hrest⟩ := h.split
  rw [htext, List.mem_append]
  rintro (hmem | hmem)
  · exact hat hmem
  · rcases hrest with rfl | ⟨port, rfl, hport⟩
    · cases hmem
    · rcases List.mem_cons.mp hmem with heq | hmem
      · exact absurd heq (by decide)
      · exact absurd (hport _ hmem) (by decide)

/-- Nor is there another first character, but the colon of a port. -/
theorem Names.head?_iff {text : String} (h : Names text host) :
    text.toList.head? = some '[' ↔ host.toList.head? = some '[' := by
  obtain ⟨rest, htext, hrest⟩ := h.split
  rw [htext]
  cases host.toList with
  | nil => rcases hrest with rfl | ⟨port, rfl, -⟩ <;> simp
  | cons c tail => exact Iff.rfl

/-- Whether a text is what stands in front of the first colon of another; where there is none,
it is the whole. -/
def BeforeColon (own named : String) : Prop :=
  ':' ∉ own.toList ∧ (named = own ∨ ∃ rest : String, named = own ++ ":" ++ rest)

theorem Route.withoutPort_eq_iff {own : String} :
    Route.withoutPort named = own ↔ BeforeColon own named := by
  constructor
  · rintro rfl
    refine ⟨fun hmem => ?_, ?_⟩
    · rw [Route.withoutPort, String.toList_ofList] at hmem
      exact absurd (List.mem_takeWhile_imp hmem) (by decide)
    · have hsplit := List.takeWhile_append_dropWhile (p := (· != ':')) (l := named.toList)
      cases hbehind : named.toList.dropWhile (· != ':') with
      | nil =>
          rw [hbehind, List.append_nil] at hsplit
          exact Or.inl (by rw [Route.withoutPort, hsplit, String.ofList_toList])
      | cons c rest =>
          -- the first character that is not taken is a colon
          have hfirst := List.head?_dropWhile_not (· != ':') named.toList
          rw [hbehind] at hfirst hsplit
          obtain rfl : c = ':' := by simpa using hfirst
          refine Or.inr ⟨String.ofList rest, String.toList_inj.mp ?_⟩
          simp [Route.withoutPort, hsplit]
  · rintro ⟨hcolon, hwhole⟩
    have hinside : ∀ c ∈ own.toList, (c != ':') = true := by
      intro c hc
      rw [bne_iff_ne]
      rintro rfl
      exact hcolon hc
    rcases hwhole with rfl | ⟨rest, rfl⟩
    · rw [Route.withoutPort, List.takeWhile_eq_self_iff.mpr hinside, String.ofList_toList]
    · rw [Route.withoutPort, String.toList_append, String.toList_append, List.append_assoc,
        List.takeWhile_append_of_pos hinside]
      simp

/-- What stands before the first colon is a host without colons. -/
theorem Names.withoutPort_eq {text : String} (h : Names text host) (hcolon : ':' ∉ host.toList) :
    Route.withoutPort text = host := by
  refine Route.withoutPort_eq_iff.mpr ⟨hcolon, ?_⟩
  rcases h with rfl | ⟨port, -, rfl⟩
  · exact Or.inl rfl
  · exact Or.inr ⟨port, rfl⟩

/-- Without user information, the host is looked for in the whole authority. -/
theorem Uri.takeWhile_at {authority : String} (hat : '@' ∉ authority.toList) :
    (authority.toList.reverse.takeWhile (· != '@')).reverse = authority.toList := by
  rw [List.takeWhile_eq_self_iff.mpr, List.reverse_reverse]
  intro c hc
  rw [bne_iff_ne]
  rintro rfl
  exact hat (List.mem_reverse.mp hc)

/-- Then it goes up to the first colon, unless there is a bracket in front. -/
theorem Uri.hostOfAuthority_of_plain {authority : String} (hat : '@' ∉ authority.toList)
    (hopen : authority.toList.head? ≠ some '[') :
    hostOfAuthority authority = Route.withoutPort authority := by
  unfold hostOfAuthority
  dsimp only
  rw [takeWhile_at hat]
  split
  next hlead => exact absurd (by rw [hlead]; rfl) hopen
  next => rfl

theorem Uri.hostOfAuthority_of_literal {authority : String} (hat : '@' ∉ authority.toList)
    (hopen : authority.toList.head? = some '[') :
    (hostOfAuthority authority).toList.head? = some '[' := by
  unfold hostOfAuthority
  dsimp only
  rw [takeWhile_at hat]
  split
  next hlead =>
    rw [hlead, String.toList_ofList]
    rfl
  next hno =>
    obtain ⟨rest, hlead⟩ := List.head?_eq_some_iff.mp hopen
    exact absurd hlead (hno rest)

/-- A request for a host without separators has that host, apart from its port. -/
theorem AsksFor.plain (h : AsksFor uri headers host) (hplain : Uri.Plain host) :
    ∃ text ∈ (RequestHead.ofRequest uri headers).host, Route.withoutPort text = host := by
  have hcolon := hplain ':' (by decide)
  obtain ⟨text, hnames, hfield | ⟨hnone, hauthority⟩⟩ := h
  · refine ⟨text, by simp [RequestHead.ofRequest, hfield], ?_⟩
    exact hnames.withoutPort_eq hcolon
  · have hhost : Uri.hostOfAuthority text = host := by
      rw [Uri.hostOfAuthority_of_plain (hnames.at_not_mem (hplain '@' (by decide))),
        hnames.withoutPort_eq hcolon]
      -- the text does not start with a bracket, as the host does not
      intro hfirst
      exact hplain '[' (by decide) (List.mem_of_mem_head? (hnames.head?_iff.mp hfirst))
    refine ⟨host, by simp [RequestHead.ofRequest, hnone, Uri.host, hauthority, hhost], ?_⟩
    exact Route.withoutPort_eq_iff.mpr ⟨hcolon, Or.inl rfl⟩

/-- A request for a host in brackets has a host that starts with one. -/
theorem AsksFor.literal (h : AsksFor uri headers host) (hat : '@' ∉ host.toList)
    (hopen : host.toList.head? = some '[') :
    ∃ text ∈ (RequestHead.ofRequest uri headers).host, text.toList.head? = some '[' := by
  obtain ⟨text, hnames, hfield | ⟨hnone, hauthority⟩⟩ := h
  · exact ⟨text, by simp [RequestHead.ofRequest, hfield], hnames.head?_iff.mpr hopen⟩
  · exact ⟨Uri.hostOfAuthority text,
      by simp [RequestHead.ofRequest, hnone, Uri.host, hauthority],
      Uri.hostOfAuthority_of_literal (hnames.at_not_mem hat) (hnames.head?_iff.mpr hopen)⟩

/-! ## §4. Routes for a host. -/

namespace Route

variable {head : RequestHead}

theorem matchesHost_iff {expected : String} : matchesHost expected head = true ↔
    ∃ named ∈ head.host, Text.sameIgnoringAsciiCase (withoutPort named) expected = true := by
  unfold matchesHost
  cases head.host <;> simp

/-- A route compares its host with what stands before the first colon, apart from case. -/
theorem matchesHost_lowercase_iff (host : Uri.Host) :
    matchesHost (Text.lowercase host.text) head = true ↔
      ∃ named ∈ head.host, Text.sameIgnoringAsciiCase (withoutPort named) host.text = true := by
  simp only [matchesHost_iff,
    Text.sameIgnoringAsciiCase_lowercase fun c hc => (host.ascii hc).1]

/-- What stands before the first colon has none. -/
theorem colon_not_mem_withoutPort (named : String) : ':' ∉ (withoutPort named).toList :=
  (withoutPort_eq_iff.mp rfl).1

/-- So no request has a host in brackets. -/
theorem matchesHost_of_literal {host : Uri.Host} (hliteral : host.isLiteral = true) :
    matchesHost (Text.lowercase host.text) head = false := by
  rw [Bool.eq_false_iff, Ne, matchesHost_lowercase_iff]
  rintro ⟨named, -, hsame⟩
  obtain ⟨rest, htext, hcolon⟩ := Uri.Host.literal hliteral
  have hmark : Text.IsMark ':' := by decide
  refine colon_not_mem_withoutPort named ((Text.mem_iff_of_same hmark hsame).mpr ?_)
  rw [htext]
  exact List.mem_cons_of_mem _ hcolon

/-- A text that differs from another in case at most has no separators if that has none. -/
theorem plain_of_same {a b : String} (h : Text.sameIgnoringAsciiCase a b = true)
    (hb : Uri.Plain b) : Uri.Plain a := by
  intro mark hmark hmem
  have hmarks : Uri.separators.all (fun mark => Text.IsMark mark) = true := by decide
  have hmark' := of_decide_eq_true (List.all_eq_true.mp hmarks mark hmark)
  exact hb mark hmark ((Text.mem_iff_of_same hmark' h).mp hmem)

/-- A request for one host is not one for a route for another. -/
theorem same_of_matchesHost {host other : Uri.Host} (hasks : AsksFor uri headers other.text)
    (hmatch : matchesHost (Text.lowercase host.text) (.ofRequest uri headers) = true) :
    Text.sameIgnoringAsciiCase other.text host.text = true := by
  obtain ⟨named, hnamed, hsame⟩ := (matchesHost_lowercase_iff host).mp hmatch
  by_cases hother : other.isLiteral = true
  · -- the host of the request starts with a bracket, and that of the route does not
    obtain ⟨rest, hopen, -⟩ := Uri.Host.literal hother
    obtain ⟨text, htext, hfirst⟩ := hasks.literal (fun hat => (other.ascii hat).2 rfl)
      (by rw [hopen]; rfl)
    obtain rfl := Option.mem_unique hnamed htext
    obtain ⟨tail, hnamed⟩ := List.head?_eq_some_iff.mp hfirst
    have hbracket : '[' ∈ (withoutPort named).toList := by simp [withoutPort, hnamed]
    by_cases hhost : host.isLiteral = true
    · rw [matchesHost_of_literal hhost] at hmatch
      cases hmatch
    · have hplain := plain_of_same hsame (Uri.Host.plain (Bool.not_eq_true _ ▸ hhost))
      exact absurd hbracket (hplain '[' (by decide))
  · obtain ⟨text, htext, hport⟩ := hasks.plain (Uri.Host.plain (Bool.not_eq_true _ ▸ hother))
    obtain rfl := Option.mem_unique hnamed htext
    rwa [hport] at hsame

/-- **A route for a host ignores case and port, unless the host is in brackets.**  A request
for the host of a route, in any case, with a port or without, is one for the route, unless the
host is in brackets: a route for such a host is never taken.  A request for another host is
none for the route.  In general, what counts is the text before the first colon. -/
theorem hostRoute_ignores_case_and_port (host : Uri.Host) :
    (host.isLiteral = false → ∀ uri headers named,
      Text.sameIgnoringAsciiCase named host.text = true → AsksFor uri headers named →
      matchesHost (Text.lowercase host.text) (.ofRequest uri headers) = true)
      ∧ (host.isLiteral = true → ∀ head, matchesHost (Text.lowercase host.text) head = false)
      ∧ (∀ uri headers (other : Uri.Host), AsksFor uri headers other.text →
        matchesHost (Text.lowercase host.text) (.ofRequest uri headers) = true →
        Text.sameIgnoringAsciiCase other.text host.text = true)
      ∧ ∀ head, matchesHost (Text.lowercase host.text) head = true ↔
        ∃ named ∈ head.host, Text.sameIgnoringAsciiCase (withoutPort named) host.text = true := by
  refine ⟨fun hliteral uri headers named hsame hasks => ?_,
    fun hliteral head => matchesHost_of_literal hliteral,
    fun uri headers other hasks hmatch => same_of_matchesHost hasks hmatch,
    fun head => matchesHost_lowercase_iff host⟩
  obtain ⟨text, htext, hport⟩ := hasks.plain (plain_of_same hsame (Uri.Host.plain hliteral))
  refine (matchesHost_lowercase_iff host).mpr ⟨text, htext, ?_⟩
  rwa [hport]

/-- A short name, and an IPv4 address. -/
def shortName : Uri.Host := .name [.plain 'E' rfl, .encoded '2' 'd' rfl rfl, .plain 'x' rfl]

def localAddress : Uri.Host := .ipv4 ⟨127, 0, 0, 1⟩

/-- The same of a name in another case with a port in the field, and of an address in the URI of
a request without a field. -/
theorem hostRoute_ignores_case_and_port_of_field :
    let headers : Http.Headers := ⟨[("host", [Utf8.encode "e%2DX:8080"])]⟩
    let uri : Uri := ⟨some "http", some "127.0.0.1:80", "/", none⟩
    shortName.text = "E%2dx" ∧ localAddress.text = "127.0.0.1"
      ∧ matchesHost (Text.lowercase shortName.text) (.ofRequest uri headers) = true
      ∧ matchesHost (Text.lowercase localAddress.text) (.ofRequest uri ⟨[]⟩) = true := by
  intro headers uri
  have hname : shortName.text = "E%2dx" := by decide +kernel
  have haddress : localAddress.text = "127.0.0.1" := by decide +kernel
  have hfield : AsksFor uri headers "e%2DX" :=
    ⟨"e%2DX:8080", Or.inr ⟨"8080", by decide +kernel, rfl⟩, Or.inl (by decide +kernel)⟩
  have hauthority : AsksFor uri ⟨[]⟩ "127.0.0.1" :=
    ⟨"127.0.0.1:80", Or.inr ⟨"80", by decide +kernel, rfl⟩, Or.inr ⟨by decide +kernel, rfl⟩⟩
  refine ⟨hname, haddress, ?_, ?_⟩
  · refine (hostRoute_ignores_case_and_port shortName).1 rfl uri headers "e%2DX" ?_ hfield
    rw [hname, Text.sameIgnoringAsciiCase_iff]
    decide
  · refine (hostRoute_ignores_case_and_port localAddress).1 rfl uri ⟨[]⟩ "127.0.0.1" ?_ hauthority
    rw [haddress, Text.sameIgnoringAsciiCase_iff]

/-- The IPv6 address of the host itself. -/
def loopback : Uri.Host :=
  .ipv6 (.gapped [] ⟨[⟨['1'], by decide, by decide, by decide⟩], none⟩ (by decide))

/-- A request for it with a port is none for a route for it, and one without a port is neither. -/
theorem loopback_not_matched :
    let withPort : Http.Headers := ⟨[("host", [Utf8.encode "[::1]:8080"])]⟩
    let withoutPort : Http.Headers := ⟨[("host", [Utf8.encode "[::1]"])]⟩
    let uri : Uri := ⟨none, none, "/x", none⟩
    loopback.text = "[::1]" ∧ AsksFor uri withPort "[::1]" ∧ AsksFor uri withoutPort "[::1]"
      ∧ matchesHost (Text.lowercase loopback.text) (.ofRequest uri withPort) = false
      ∧ matchesHost (Text.lowercase loopback.text) (.ofRequest uri withoutPort) = false :=
  ⟨by decide +kernel, ⟨"[::1]:8080", Or.inr ⟨"8080", by decide +kernel, rfl⟩,
      Or.inl (by decide +kernel)⟩,
    ⟨"[::1]", Or.inl rfl, Or.inl (by decide +kernel)⟩, matchesHost_of_literal rfl,
    matchesHost_of_literal rfl⟩

end Route

end Wiretap
