/-
  Wiretap.Uri.Basic
  ─────────────────
  **REQUEST TARGETS AND UPSTREAM ADDRESSES.**

  A URI in one of the forms that HTTP knows: a path with a query, an authority alone, or
  all of scheme, authority, path and query.  The path and the query are kept as written;
  `Uri.routedPath` and `Uri.target` are what routing and forwarding see, in which a
  missing path is `/`.
-/

namespace Wiretap

/-- A parsed URI; a fragment is never part of it. -/
structure Uri where
  /-- The scheme; `http` and `https` are in lower case. -/
  scheme : Option String
  /-- User information, host and port as written. -/
  authority : Option String
  /-- The path as written, possibly empty. -/
  path : String
  /-- What follows the first question mark. -/
  query : Option String
  deriving DecidableEq, Repr

namespace Uri

/-- The query with its question mark, empty where there is none. -/
def querySuffix (u : Uri) : String :=
  match u.query with
  | some q => "?" ++ q
  | none => ""

/-- Whether the URI has a path at all: an authority alone has none. -/
def hasPath (u : Uri) : Bool := u.scheme.isSome || u.path != "" || u.query.isSome

/-- The path that routes are matched against. -/
def routedPath (u : Uri) : String :=
  if u.hasPath && u.path == "" then "/" else u.path

/-- Path and query as one text, `/` where both are missing. -/
def target (u : Uri) : String :=
  let text := u.path ++ u.querySuffix
  if text == "" then "/" else text

/-- The written form of the whole URI. -/
def text (u : Uri) : String :=
  (match u.scheme with
    | some s => s ++ "://"
    | none => "")
    ++ u.authority.getD "" ++ u.routedPath ++ u.querySuffix

/-- The host within an authority: what follows the user information, up to the closing
bracket of an IP literal or else up to the first colon. -/
def hostOfAuthority (authority : String) : String :=
  let hostAndPort := (authority.toList.reverse.takeWhile (· != '@')).reverse
  match hostAndPort with
  | '[' :: _ => String.ofList (hostAndPort.takeWhile (· != ']') ++ [']'])
  | _ => String.ofList (hostAndPort.takeWhile (· != ':'))

/-- The host of the authority. -/
def host (u : Uri) : Option String := u.authority.map hostOfAuthority

end Uri

end Wiretap
