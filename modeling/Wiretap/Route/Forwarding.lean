/-
  Wiretap.Route.Forwarding
  ────────────────────────
  **WHAT IS SENT ON, AND WHAT COMES BACK.**

  The URI under which a request is sent to its upstream, and how many body bytes a
  response will have, where its head says so.
-/
import Wiretap.Http.Headers
import Wiretap.Text.Blank
import Wiretap.Uri.Parser

namespace Wiretap

/-- A text without slashes at its end. -/
def withoutTrailingSlashes (s : String) : String :=
  String.ofList (s.toList.reverse.dropWhile (· == '/')).reverse

/-- A request URI mapped onto the base of an upstream: scheme and authority of the base,
its path in front of the path of the request, and the query of the request. -/
def Uri.mapOnto (base request : Uri) : Option Uri := do
  let scheme ← base.scheme
  let authority ← base.authority
  let target := withoutTrailingSlashes base.routedPath ++ request.target
  let (path, query) ← Uri.readTarget target.toList
  return ⟨some scheme, some authority, path, query⟩

namespace Http

/-- A number of 64 bits in decimal digits, possibly with a plus sign. -/
def natural64? (cs : List Char) : Option Nat :=
  let digits :=
    match cs with
    | '+' :: rest => rest
    | _ => cs
  if digits.isEmpty || !digits.all Char.isDigit then none
  else
    let n := digits.foldl (fun n c => 10 * n + (c.toNat - 48)) 0
    if n < UInt64.size then some n else none

/-- Whether a response with this status never has a body. -/
def isBodiless (status : Nat) : Bool :=
  (100 ≤ status && status < 200) || status == 204 || status == 304

/-- How many body bytes the response to a request will have, where that is known from its
head. -/
def expectedLength (method : String) (status : Nat) (headers : Headers) : Option Nat :=
  if method == "HEAD" || isBodiless status then some 0
  else do
    let value ← headers.text? "content-length"
    natural64? (Text.trimChars value.toList)

end Http

end Wiretap
