/-
  Wiretap.Route.Table
  ───────────────────
  **ROUTES.**

  A route says which requests it is for, where they are sent and how they are recorded.
  Of the routes that match a request the one with the highest priority is taken, and of
  those with equal priority the first.
-/
import Wiretap.Config.Validation
import Wiretap.Http.Headers
import Wiretap.Log.Event
import Wiretap.Text.Lowercase

namespace Wiretap

/-! ## §1. What routes look at. -/

/-- The part of a request that routes look at. -/
structure RequestHead where
  host : Option String
  path : String
  deriving DecidableEq, Repr

/-- The head of a request: the host that its field names, or where that is missing or
cannot be read, the host of its URI. -/
def RequestHead.ofRequest (uri : Uri) (headers : Http.Headers) : RequestHead :=
  ⟨(headers.text? "host").or uri.host, uri.routedPath⟩

/-! ## §2. Routes. -/

/-- A route. -/
structure Route where
  name : String
  /-- The base that requests are sent to. -/
  upstreamBase : Uri
  priority : Nat
  /-- Whether bodies are captured. -/
  capture : Bool
  /-- The general policy with the rules of the route layered over it. -/
  policy : Policy
  /-- The host in lower case, if the route is for one host. -/
  host : Option String
  pathPrefix : Option String

namespace Route

/-- A host without what follows its first colon. -/
def withoutPort (host : String) : String := String.ofList (host.toList.takeWhile (· != ':'))

/-- Whether a request is for a host given in lower case. -/
def matchesHost (expected : String) (head : RequestHead) : Bool :=
  match head.host with
  | none => false
  | some host => Text.sameIgnoringAsciiCase (withoutPort host) expected

/-- Whether the path of a request starts with a text. -/
def matchesPath (start : String) (head : RequestHead) : Bool :=
  start.toList.isPrefixOf head.path.toList

/-- Whether a condition holds, if there is one. -/
def holds (condition : Option String) (test : String → RequestHead → Bool) (head : RequestHead) :
    Bool :=
  match condition with
  | none => true
  | some c => test c head

/-- Whether the route is for a request. -/
def matchesHead (r : Route) (head : RequestHead) : Bool :=
  holds r.host matchesHost head && holds r.pathPrefix matchesPath head

/-- The route as it is announced. -/
def notice (r : Route) : RouteNotice := ⟨r.name, r.upstreamBase.text, r.priority, r.capture⟩

end Route

/-! ## §3. Tables. -/

/-- Why some settings make no routes. -/
inductive RouteFailure
  | invalidUpstream (route value : String)
  | policy (route : String) (error : PolicyError)
  deriving DecidableEq, Repr

/-- The wording of a failure. -/
def RouteFailure.message : RouteFailure → String
  | .invalidUpstream route value => "route '" ++ route ++ "': invalid upstream '" ++ value ++ "'"
  | .policy route error => "route '" ++ route ++ "': " ++ error.message

/-- The base that requests of a route are sent to.  Only plain HTTP with an authority will do. -/
def Route.upstreamOf (s : Config.RouteSettings) : Except RouteFailure Uri :=
  match Uri.parse? s.upstreamUri with
  | none => .error (.invalidUpstream s.name s.upstreamUri)
  | some u =>
    if u.scheme != some "http" || u.authority.isNone then
      .error (.invalidUpstream s.name s.upstreamUri)
    else .ok u

/-- The policy of a route: its own rules, if it has any, layered over the general policy. -/
def Route.policyOf (general : Policy) (s : Config.RouteSettings) : Except RouteFailure Policy :=
  match s.headers with
  | none => .ok general
  | some rules =>
    match rules.toPolicy with
    | .ok own => .ok (general.merge own)
    | .error error => .error (.policy s.name error)

/-- The route of some settings. -/
def Route.ofSettings (general : Policy) (s : Config.RouteSettings) : Except RouteFailure Route := do
  let upstreamBase ← Route.upstreamOf s
  let policy ← Route.policyOf general s
  return ⟨s.name, upstreamBase, s.priority, s.capture, policy, s.host.map Text.lowercase,
    s.pathPrefix⟩

/-- Routes in the order in which they are tried. -/
structure RouteTable where
  routes : List Route

namespace RouteTable

/-- The routes of some settings: by priority, the highest first, and in their order among
equals. -/
def ofSettings (general : Policy) (settings : List Config.RouteSettings) :
    Except RouteFailure RouteTable := do
  let routes ← settings.mapM (Route.ofSettings general)
  return ⟨routes.mergeSort fun a b => b.priority ≤ a.priority⟩

/-- The route for a request, if there is one. -/
def find? (t : RouteTable) (head : RequestHead) : Option Route :=
  t.routes.find? fun r => r.matchesHead head

end RouteTable

end Wiretap
