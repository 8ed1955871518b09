/-
  Wiretap.Proofs.LoggedPaths
  ──────────────────────────
  **WHICH PATH IS LOGGED.**

  The path in a record is cut out of the text of the URI, the one that is routed is a part of
  the URI itself.  Only the first question mark or hash of a text ends its path, and there is
  none in front of the query, so what is cut out is the path with all that stands before it:

    • `Uri.parse?_beginning`  — the text of a URI up to its query has neither mark,
    • `Record.pathOf_text`    — what is cut out of the text,
    • `Proxy.path_eq_routed_iff` — the logged path is the routed one unless the URI names an
      authority.
-/
import Wiretap.Proofs.Delivery
import Wiretap.Proofs.Forwarding
import Wiretap.Service.Proxy

namespace Wiretap

/-! ## §1. The text of a URI. -/

namespace Uri

variable {u : Uri} {text scheme : String} {cs rest : List Char}

/-- The beginning of the text of a URI, up to its path. -/
def origin (u : Uri) : String :=
  (match u.scheme with
    | some s => s ++ "://"
    | none => "")
    ++ u.authority.getD ""

theorem text_eq (u : Uri) : u.text = u.origin ++ u.routedPath ++ u.querySuffix := rfl

/-- Neither a question mark nor a hash is among some characters. -/
def Unmarked (cs : List Char) : Prop := ∀ c ∈ cs, c ≠ '?' ∧ c ≠ '#'

-- the check of each character, not of all characters there are
instance (cs : List Char) : Decidable (Unmarked cs) := List.decidableBAll _ cs

theorem Unmarked.append {ds : List Char} (h : Unmarked cs) (h' : Unmarked ds) :
    Unmarked (cs ++ ds) := by
  intro c hc
  rcases List.mem_append.mp hc with hc | hc
  · exact h c hc
  · exact h' c hc

/-- A text that is read as a URI has one of four forms. -/
theorem parse?_cases (h : parse? text = some u) :
    u = ⟨none, none, "*", none⟩ ∨ readPathOnly text.toList = some u
      ∨ (∃ scheme rest, readScheme text.toList = .found scheme rest
          ∧ readAbsolute scheme rest = some u)
      ∨ text.toList ≠ [] ∧ readAuthorityOnly text.toList = some u := by
  unfold parse? at h
  split at h
  next => cases h
  next =>
    split at h
    next => cases h
    next =>
      cases h
      exact Or.inl rfl
    next hslash => exact Or.inr (Or.inl (hslash ▸ h))
    next hempty _ _ =>
      split at h
      next => cases h
      next hscheme => exact Or.inr (Or.inr (Or.inl ⟨_, _, hscheme, h⟩))
      next => exact Or.inr (Or.inr (Or.inr ⟨hempty, h⟩))

theorem readScheme_unmarked (h : readScheme cs = .found scheme rest) :
    Unmarked scheme.toList := by
  unfold readScheme at h
  split at h
  next =>
    cases h
    decide
  next =>
    cases h
    decide
  next =>
    dsimp only at h
    split at h
    next =>
      split at h
      next => cases h
      next =>
        cases h
        intro c hc
        rw [String.toList_ofList] at hc
        have hchar := List.mem_takeWhile_imp hc
        constructor
        · rintro rfl
          exact absurd hchar (by decide)
        · rintro rfl
          exact absurd hchar (by decide)
    next => cases h

theorem unmarked_of_apart {authority : String}
    (h : ∀ c ∈ authority.toList, endsAuthority c = false) : Unmarked authority.toList := by
  intro c hc
  have hnot := h c hc
  simp only [endsAuthority, Bool.or_eq_false_iff, beq_eq_false_iff_ne] at hnot
  exact ⟨hnot.1.2, hnot.2⟩

/-- A proper path has no mark, and neither has the path that is routed. -/
theorem ProperTarget.unmarked (h : ProperTarget u.path u.query) :
    Unmarked u.routedPath.toList := fun c hc => (h.routed.path c hc).2

/-- **The text of a URI has no mark up to its query**, and it begins with the path just where no
authority is named. -/
theorem parse?_beginning (h : parse? text = some u) :
    Unmarked (u.origin ++ u.routedPath).toList ∧ (u.origin = "" ↔ u.authority = none) := by
  rw [String.toList_append]
  rcases parse?_cases h with rfl | hpath | ⟨scheme, rest, hscheme, habsolute⟩ | ⟨hempty, hauthority⟩
  · decide
  · obtain ⟨⟨path, query⟩, htarget, rfl⟩ := Option.map_eq_some_iff.mp hpath
    exact ⟨(readTarget_proper htarget).1.unmarked (u := ⟨none, none, path, query⟩),
      iff_of_true rfl rfl⟩
  · have hsome : u.scheme = some scheme := by
      unfold readAbsolute at habsolute
      dsimp only at habsolute
      split at habsolute
      next => cases habsolute
      next =>
        obtain ⟨t, -, rfl⟩ := Option.map_eq_some_iff.mp habsolute
        rfl
    obtain ⟨authority, hform⟩ :=
      (readAbsolute_form habsolute).absolute_of_scheme (by rw [hsome]; rfl)
    have horigin : u.origin = scheme ++ "://" ++ authority := by
      simp only [origin, hsome, hform.eq, Option.getD_some]
    have hmiddle : Unmarked "://".toList := by
      decide
    rw [horigin, String.toList_append, String.toList_append, hform.eq]
    refine ⟨(((readScheme_unmarked hscheme).append hmiddle).append
      (unmarked_of_apart hform.apart)).append hform.target.unmarked, iff_of_false ?_ nofun⟩
    intro hnone
    have hlist := congrArg String.toList hnone
    rw [String.toList_append] at hlist
    exact hform.nonempty (List.append_eq_nil_iff.mp hlist).2
  · unfold readAuthorityOnly at hauthority
    split at hauthority
    next hvalid =>
      cases hauthority
      simp only [Bool.and_eq_true, Bool.not_eq_true', List.any_eq_false] at hvalid
      have horigin : origin ⟨none, some (String.ofList text.toList), "", none⟩ = text := by
        simp [origin]
      have hrouted : routedPath ⟨none, some (String.ofList text.toList), "", none⟩ = "" := rfl
      rw [horigin, hrouted, String.toList_empty, List.append_nil]
      refine ⟨unmarked_of_apart fun c hc => by simpa using hvalid.1 c hc, iff_of_false ?_ nofun⟩
      rintro rfl
      exact hempty rfl
    next => cases hauthority

end Uri

/-! ## §2. The path of a record. -/

/-- **What is cut out of the text of a URI** is the path that is routed, behind all that stands
before it. -/
theorem Record.pathOf_text {text : String} {u : Uri} (h : Uri.parse? text = some u) :
    pathOf u.text = u.origin ++ u.routedPath := by
  have hbeginning : ∀ c ∈ (u.origin ++ u.routedPath).toList, (c != '?' && c != '#') = true := by
    intro c hc
    simpa using (Uri.parse?_beginning h).1 c hc
  -- the query, if there is one, begins with a mark
  have hquery : u.querySuffix.toList.takeWhile (fun c => c != '?' && c != '#') = [] := by
    unfold Uri.querySuffix
    cases u.query with
    | none => rfl
    | some q => simp
  rw [pathOf, Uri.text_eq, String.toList_append, List.takeWhile_append_of_pos hbeginning, hquery,
    List.append_nil, String.ofList_toList]

/-! ## §3. From a request to its record. -/

/-- What is done to a guard before its exchange is over. -/
inductive GuardStep
  | register (tap : Nat)
  | setStatus (status : Nat)
  | setResponse (status : Nat) (headers : Http.Headers)

/-- The guard after one more step. -/
def GuardStep.apply (g : Guard) : GuardStep → Guard
  | .register tap => g.register tap
  | .setStatus status => g.setStatus status
  | .setResponse status headers => g.setResponse status headers

namespace Guard

variable {g : Guard} {e : CompletedExchange} {taps : List Nat}

/-- Whatever becomes known of an exchange, its URI stays the one that it was opened with. -/
theorem exists_pending_of_step (hpending : g.pending = some (e, taps)) (step : GuardStep) :
    ∃ e' taps', (step.apply g).pending = some (e', taps') ∧ e'.uri = e.uri := by
  cases step with
  | register tap =>
      refine ⟨e, taps ++ [tap], ?_, rfl⟩
      simp only [GuardStep.apply, register, hpending, Option.map_some]
  | setStatus status =>
      refine ⟨{ e with status := some status }, taps, ?_, rfl⟩
      simp only [GuardStep.apply, setStatus, modify, hpending, Option.map_some]
  | setResponse status headers =>
      refine ⟨{ e with status := some status, responseHeaders := headers }, taps, ?_, rfl⟩
      simp only [GuardStep.apply, setResponse, modify, hpending, Option.map_some]

theorem exists_pending_of_steps (hpending : g.pending = some (e, taps)) (steps : List GuardStep) :
    ∃ e' taps', (steps.foldl (fun g step => step.apply g) g).pending = some (e', taps')
      ∧ e'.uri = e.uri := by
  induction steps generalizing g e taps with
  | nil => exact ⟨e, taps, hpending, rfl⟩
  | cons step steps ih =>
      obtain ⟨e₁, taps₁, hfirst, huri⟩ := exists_pending_of_step hpending step
      obtain ⟨e', taps', hrest, huri'⟩ := ih hfirst
      exact ⟨e', taps', hrest, huri'.trans huri⟩

end Guard

namespace Proxy

variable {routes : RouteTable} {request : Request} {text : String}

/-- The path of a record is that of the request as it was routed, behind whatever the URI names
before it; so it is the routed one just where no authority is named. -/
structure PathLogged (request : Request) (record : Record) : Prop where
  path : record.path
    = request.uri.origin ++ (RequestHead.ofRequest request.uri request.headers).path
  routed : record.path = (RequestHead.ofRequest request.uri request.headers).path
    ↔ request.uri.authority = none

/-- From one state of the traffic, with some taps closed, to a later one a record was handed to
the log, and nothing else happened. -/
def HandsOver (t t' : Traffic) (record : Record) : Prop :=
  ∃ taps, t' = { t.closeTaps taps with site := (t.closeTaps taps).site.submit record }

theorem pathLogged_assemble (h : Uri.parse? text = some request.uri) (p : Recording) (s : Store)
    {e : CompletedExchange} (he : e.uri = request.uri.text) :
    PathLogged request (p.assemble s e) := by
  have hpath : (p.assemble s e).path = request.uri.origin ++ request.uri.routedPath := by
    show Record.pathOf e.uri = _
    rw [he, Record.pathOf_text h]
  refine ⟨hpath, ?_⟩
  rw [hpath, ← (Uri.parse?_beginning h).2]
  exact String.append_eq_right_iff

/-- Whenever an exchange that was opened for a request is over, its record has the path of the
request. -/
theorem pathLogged_complete (h : Uri.parse? text = some request.uri) {g : Guard}
    {e : CompletedExchange} {taps : List Nat} (hpending : g.pending = some (e, taps))
    (he : e.uri = request.uri.text) (t : Traffic) (exception : Option String)
    (elapsed : Time.Span) :
    ∃ record, HandsOver t (g.complete t exception elapsed).2 record
      ∧ PathLogged request record := by
  rw [Guard.complete_of_pending hpending]
  exact ⟨_, ⟨taps, rfl⟩, pathLogged_assemble h _ _ (e := e.over elapsed exception) he⟩

/-- The exchange of a request is pending once it was opened, whether or not it is captured. -/
theorem exists_pending_of_opened (capture : Bool) (number : Nat) (e : CompletedExchange) :
    ∃ taps, (if capture then (Guard.new e).register number else Guard.new e).pending
      = some (e, taps) := by
  cases capture with
  | false => exact ⟨[], rfl⟩
  | true => exact ⟨[number], rfl⟩

/-- **The logged path is the routed one unless the URI names an authority.**  A request without a
route is not logged.  For any other an exchange is opened; when it is over, at once or after
whatever becomes known of it, one record is handed to the log, and the path in it is the one that
the routes were asked for, behind scheme and authority where the URI has them. -/
theorem path_eq_routed_iff (h : Uri.parse? text = some request.uri) (routes : RouteTable)
    (t : Traffic) (id : ExchangeId) (started : Time.Timestamp) (elapsed : Time.Span) :
    match receive routes t request id started elapsed with
    | (.noRoute, t') => t' = t
    | (.unmappable, t') => ∃ t₁ record, HandsOver t₁ t' record ∧ PathLogged request record
    | (.forwarded f, _) => ∀ steps : List GuardStep, ∀ t₁ exception elapsed₁,
        ∃ record, HandsOver t₁ ((steps.foldl (fun g step => step.apply g) f.guard).complete t₁
          exception elapsed₁).2 record ∧ PathLogged request record := by
  unfold receive
  cases hroute : routes.find? (.ofRequest request.uri request.headers) with
  | none => rfl
  | some route =>
      dsimp only
      obtain ⟨taps, hopened⟩ := exists_pending_of_opened
        (route.capture && t.site.journal.store.repository.enabled) t.taps.length
        (openExchange route request id started)
      generalize (if (route.capture && t.site.journal.store.repository.enabled) = true
        then (Guard.new (openExchange route request id started)).register t.taps.length
        else Guard.new (openExchange route request id started)) = g at hopened ⊢
      cases hmap : route.upstreamBase.mapOnto request.uri with
      | none =>
          obtain ⟨e, taps', hpending, huri⟩ :=
            Guard.exists_pending_of_step hopened (.setStatus badGateway)
          obtain ⟨record, hhands, hpath⟩ := pathLogged_complete h hpending huri _ _ elapsed
          exact ⟨_, record, hhands, hpath⟩
      | some target =>
          intro steps t₁ exception elapsed₁
          obtain ⟨e, taps', hpending, huri⟩ := Guard.exists_pending_of_steps hopened steps
          exact pathLogged_complete h hpending huri t₁ exception elapsed₁

/-- A route for all requests. -/
def anyRoute : Route :=
  ⟨"all", ⟨some "http", some "up.test", "", none⟩, 0, false, .empty, none, none⟩

/-- A request for a URI. -/
def requestFor (uri : Uri) : Request := ⟨"GET", uri, .empty, .v4 ⟨127, 0, 0, 1⟩ 4000, none⟩

/-- Traffic with no exchange yet, and a log without sinks. -/
def noTraffic : Traffic :=
  ⟨⟨⟨⟨.ofDirectories [["b"]] [], ⟨true, .ofText "/b", 16, .both ∅⟩, .zero⟩, ⟨[], [], .idle, 0⟩, []⟩,
    none⟩, ⟨.empty, none⟩, []⟩

/-- The same of a request that names a path and a query, and has a response. -/
theorem path_eq_routed_iff_of_path :
    let uri : Uri := ⟨none, none, "/a", some "b=http://c"⟩
    Uri.parse? "/a?b=http://c" = some uri
      ∧ ∃ f t record, receive ⟨[anyRoute]⟩ noTraffic (requestFor uri) ⟨"x"⟩ ⟨0, 0⟩ .zero
          = (.forwarded f, t)
        ∧ HandsOver t ((f.guard.setResponse 200 .empty).complete t none .zero).2 record
        ∧ record.path = "/a" := by
  intro uri
  have hparse : Uri.parse? "/a?b=http://c" = some uri := by decide +kernel
  have hmap : anyRoute.upstreamBase.mapOnto uri
      = some ⟨some "http", some "up.test", "/a", some "b=http://c"⟩ := by decide +kernel
  have hroute : (⟨[anyRoute]⟩ : RouteTable).find? (.ofRequest uri .empty) = some anyRoute := rfl
  obtain ⟨f, t, hreceive⟩ : ∃ f t, receive ⟨[anyRoute]⟩ noTraffic (requestFor uri) ⟨"x"⟩ ⟨0, 0⟩
      .zero = (.forwarded f, t) := by
    simp only [receive, requestFor, hroute, hmap]
    exact ⟨_, _, rfl⟩
  have hparseOwn : Uri.parse? "/a?b=http://c" = some (requestFor uri).uri := hparse
  have hlogged := path_eq_routed_iff hparseOwn ⟨[anyRoute]⟩ noTraffic ⟨"x"⟩ ⟨0, 0⟩ .zero
  rw [hreceive] at hlogged
  obtain ⟨record, hhands, hpath⟩ := hlogged [.setResponse 200 .empty] t none .zero
  exact ⟨hparse, f, t, record, hreceive, hhands, hpath.routed.mpr rfl⟩

/-- A request that names its upstream is routed by its path, and logged under a path with scheme
and authority. -/
theorem absolute_form_not_logged_by_path :
    let uri : Uri := ⟨some "http", some "proxy.test", "/a", some "b=c"⟩
    Uri.parse? "http://proxy.test/a?b=c" = some uri ∧ uri.hasPath = true
      ∧ (RequestHead.ofRequest uri .empty).path = "/a"
      ∧ ∃ f t record, receive ⟨[anyRoute]⟩ noTraffic (requestFor uri) ⟨"x"⟩ ⟨0, 0⟩ .zero
          = (.forwarded f, t)
        ∧ HandsOver t (f.guard.complete t none .zero).2 record
        ∧ record.path = "http://proxy.test/a" := by
  intro uri
  have hparse : Uri.parse? "http://proxy.test/a?b=c" = some uri := by decide +kernel
  have hmap : anyRoute.upstreamBase.mapOnto uri
      = some ⟨some "http", some "up.test", "/a", some "b=c"⟩ := by decide +kernel
  have hroute : (⟨[anyRoute]⟩ : RouteTable).find? (.ofRequest uri .empty) = some anyRoute := rfl
  refine ⟨hparse, by decide, by decide +kernel, ?_⟩
  simp only [receive, requestFor, hroute, hmap]
  exact ⟨_, _, _, rfl, ⟨[], rfl⟩, by decide +kernel⟩

end Proxy

end Wiretap
