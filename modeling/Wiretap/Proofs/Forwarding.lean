/-
  Wiretap.Proofs.Forwarding
  ─────────────────────────
  **WHERE A REQUEST IS SENT ON.**

  The path of a request is put behind that of its upstream as text, and the text is taken apart
  again.  Nothing moves on the way: the path of an upstream has no query and no fragment, the
  path of a request starts with a slash, and an authority has none.  So the URI that comes out
  has the authority of the upstream, and so has the URI that its text is read as:

    • `Uri.readTarget_written`   — a path and a query are read as they were written,
    • `Uri.parse?_form`          — the forms of a URI that was read,
    • `Uri.parse?_text`          — an absolute URI is read back from its text,
    • `RouteTable.mapOnto_route` — a request mapped onto the upstream of a route.
-/
import Mathlib.Data.List.DropRight
import Wiretap.Proofs.Startup
import Wiretap.Route.Forwarding

namespace Wiretap

namespace Uri

variable {u : Uri} {text path authority : String} {query : Option String} {cs : List Char}

/-! ## §1. Paths and queries. -/

/-- What a path and a query consist of, so that they can be told apart. -/
structure ProperTarget (path : String) (query : Option String) : Prop where
  path : ∀ c ∈ path.toList, isPathChar c = true ∧ c ≠ '?' ∧ c ≠ '#'
  query : ∀ q ∈ query, ∀ c ∈ q.toList, isQueryChar c = true ∧ c ≠ '#'

theorem drop_takeWhile (p : Char → Bool) (cs : List Char) :
    cs.drop (cs.takeWhile p).length = cs.dropWhile p := by
  calc cs.drop (cs.takeWhile p).length
      = (cs.takeWhile p ++ cs.dropWhile p).drop (cs.takeWhile p).length := by
        rw [List.takeWhile_append_dropWhile]
    _ = cs.dropWhile p := List.drop_left

/-- What is read is a proper path, as far as one goes, and a proper query. -/
theorem readTarget_proper (h : readTarget cs = some (path, query)) :
    ProperTarget path query ∧ path.toList = cs.takeWhile fun c => c != '?' && c != '#' := by
  unfold readTarget at h
  dsimp only at h
  split at h
  next => cases h
  next hpath =>
    simp only [Bool.not_eq_true', Bool.not_eq_false, List.all_eq_true] at hpath
    have hproper : ∀ c ∈ cs.takeWhile (fun c => c != '?' && c != '#'),
        isPathChar c = true ∧ c ≠ '?' ∧ c ≠ '#' := by
      intro c hc
      have hpast := List.mem_takeWhile_imp hc
      simp only [Bool.and_eq_true, bne_iff_ne] at hpast
      exact ⟨hpath c hc, hpast⟩
    split at h
    next rest hrest =>
      split at h
      next hquery =>
        cases h
        rw [List.all_eq_true] at hquery
        refine ⟨⟨by simpa using hproper, ?_⟩, String.toList_ofList⟩
        rintro q ⟨⟩ c hc
        rw [String.toList_ofList] at hc
        have hpast := List.mem_takeWhile_imp hc
        exact ⟨hquery c hc, by simpa using hpast⟩
      next => cases h
    next =>
      cases h
      exact ⟨⟨by simpa using hproper, by simp⟩, String.toList_ofList⟩

/-- A proper path and a proper query are read as they were written. -/
theorem readTarget_written (h : ProperTarget u.path u.query) :
    readTarget (u.path.toList ++ u.querySuffix.toList) = some (u.path, u.query) := by
  have hinside : ∀ c ∈ u.path.toList, (c != '?' && c != '#') = true := by
    intro c hc
    obtain ⟨-, hquestion, hfragment⟩ := h.path c hc
    simp [hquestion, hfragment]
  have hpath : u.path.toList.all isPathChar = true :=
    List.all_eq_true.mpr fun c hc => (h.path c hc).1
  have hquery := h.query
  unfold readTarget querySuffix
  cases hq : u.query with
  | none =>
      rw [String.toList_empty, List.append_nil, List.takeWhile_eq_self_iff.mpr hinside]
      simp [hpath]
  | some q =>
      rw [hq] at hquery
      have htake : (u.path.toList ++ ("?" ++ q).toList).takeWhile
          (fun c => c != '?' && c != '#') = u.path.toList := by
        rw [List.takeWhile_append_of_pos hinside, String.toList_append]
        simp
      have hall : q.toList.takeWhile (· != '#') = q.toList := by
        rw [List.takeWhile_eq_self_iff]
        intro c hc
        simpa using (hquery q rfl c hc).2
      have hchars : q.toList.all isQueryChar = true :=
        List.all_eq_true.mpr fun c hc => (hquery q rfl c hc).1
      dsimp only
      rw [htake, List.drop_left, String.toList_append]
      simp [hpath, hall, hchars]

/-! ## §2. URIs that were read. -/

/-- An absolute URI: its authority can be told from what follows, and its path is empty or
starts with a slash. -/
structure Absolute (u : Uri) (authority : String) : Prop where
  eq : u.authority = some authority
  nonempty : authority.toList ≠ []
  valid : isAuthority authority.toList = true
  apart : ∀ c ∈ authority.toList, endsAuthority c = false
  target : ProperTarget u.path u.query
  rooted : u.path.toList = [] ∨ u.path.toList.head? = some '/'

/-- The forms of a URI that was read: an asterisk, a path with a query, an authority, and all
of these behind a scheme. -/
inductive Form (u : Uri) : Prop
  | asterisk (h : u = ⟨none, none, "*", none⟩)
  | path (hscheme : u.scheme = none) (hproper : ProperTarget u.path u.query)
      (hslash : u.path.toList.head? = some '/')
  | authority (hscheme : u.scheme = none) (hauthority : u.authority.isSome = true)
  | absolute (scheme authority : String) (hscheme : u.scheme = some scheme)
      (h : Absolute u authority)

theorem readPathOnly_form {rest : List Char} (h : readPathOnly ('/' :: rest) = some u) :
    Form u := by
  obtain ⟨⟨path, query⟩, htarget, rfl⟩ := Option.map_eq_some_iff.mp h
  obtain ⟨hproper, hpath⟩ := readTarget_proper htarget
  exact .path rfl hproper (by rw [hpath]; rfl)

theorem readAuthorityOnly_form (h : readAuthorityOnly cs = some u) : Form u := by
  unfold readAuthorityOnly at h
  split at h
  next =>
    cases h
    exact .authority rfl rfl
  next => cases h

/-- What follows an authority starts with a character that ends it, and so a path that follows
starts with a slash. -/
theorem rooted_of_dropWhile (cs : List Char) :
    (cs.dropWhile fun c => !endsAuthority c).takeWhile (fun c => c != '?' && c != '#') = []
      ∨ ((cs.dropWhile fun c => !endsAuthority c).takeWhile
          fun c => c != '?' && c != '#').head? = some '/' := by
  cases hrest : cs.dropWhile fun c => !endsAuthority c with
  | nil => exact Or.inl rfl
  | cons c rest =>
      have hends : endsAuthority c = true := by
        have hhead := List.head?_dropWhile_not (fun c => !endsAuthority c) cs
        rw [hrest] at hhead
        simpa using hhead
      simp only [endsAuthority, Bool.or_eq_true, beq_iff_eq] at hends
      rcases hends with (rfl | rfl) | rfl
      · exact Or.inr rfl
      · exact Or.inl rfl
      · exact Or.inl rfl

theorem readAbsolute_form {scheme : String} (h : readAbsolute scheme cs = some u) :
    Form u := by
  unfold readAbsolute at h
  dsimp only at h
  split at h
  next => cases h
  next hauthority =>
    simp only [Bool.or_eq_true, Bool.not_eq_true', not_or, Bool.not_eq_false,
      List.isEmpty_iff] at hauthority
    obtain ⟨⟨path, query⟩, htarget, rfl⟩ := Option.map_eq_some_iff.mp h
    obtain ⟨hproper, hpath⟩ := readTarget_proper htarget
    rw [drop_takeWhile] at hpath
    refine .absolute scheme _ rfl ⟨rfl, ?_, ?_, ?_, hproper, ?_⟩
    · rw [String.toList_ofList]
      exact hauthority.1
    · rw [String.toList_ofList]
      exact hauthority.2
    · intro c hc
      rw [String.toList_ofList] at hc
      simpa using List.mem_takeWhile_imp hc
    · rw [hpath]
      exact rooted_of_dropWhile cs

theorem parse?_form (h : parse? text = some u) : Form u := by
  unfold parse? at h
  split at h
  next => cases h
  next =>
    split at h
    next => cases h
    next =>
      cases h
      exact .asterisk rfl
    next => exact readPathOnly_form h
    next =>
      split at h
      next => cases h
      next => exact readAbsolute_form h
      next => exact readAuthorityOnly_form h

/-- Only an absolute URI has a scheme. -/
theorem Form.absolute_of_scheme (h : Form u) (hscheme : u.scheme.isSome = true) :
    ∃ authority, Absolute u authority := by
  cases h with
  | asterisk h =>
      rw [h] at hscheme
      cases hscheme
  | path hnone hproper hslash =>
      rw [hnone] at hscheme
      cases hscheme
  | authority hnone hauthority =>
      rw [hnone] at hscheme
      cases hscheme
  | absolute scheme authority hsome habsolute => exact ⟨authority, habsolute⟩

/-- A URI whose target starts with a slash, unless it is an authority alone: the target is its
path, which starts with that slash, and its query. -/
structure Rooted (u : Uri) : Prop where
  proper : ProperTarget u.routedPath u.query
  target : u.target = u.routedPath ++ u.querySuffix
  slash : u.routedPath.toList.head? = some '/'

/-- The path that is routed is a proper one, too. -/
theorem ProperTarget.routed (h : ProperTarget u.path u.query) :
    ProperTarget u.routedPath u.query := by
  unfold routedPath
  split
  next => exact ⟨by simp [isPathChar], h.query⟩
  next => exact h

/-- A path that starts with a slash is the one that is routed. -/
theorem routedPath_of_slash (h : u.path.toList.head? = some '/') :
    u.routedPath = u.path ∧ u.target = u.path ++ u.querySuffix := by
  have hne : u.path ≠ "" := by
    intro hempty
    rw [hempty] at h
    cases h
  simp [routedPath, target, hne]

theorem Rooted.of_path (hproper : ProperTarget u.path u.query)
    (hpath : u.path.toList.head? = some '/') : Rooted u := by
  obtain ⟨hrouted, htarget⟩ := routedPath_of_slash hpath
  exact ⟨hproper.routed, by rw [htarget, hrouted], hrouted ▸ hpath⟩

/-- An empty path is routed as a slash, and there is no query if the target starts with one. -/
theorem Rooted.of_empty (hproper : ProperTarget u.path u.query) (hpath : u.path = "")
    (hscheme : u.scheme.isSome = true) (hslash : u.target.toList.head? = some '/') : Rooted u := by
  have hquery : u.query = none := by
    cases hq : u.query with
    | none => rfl
    | some q => simp [Uri.target, querySuffix, hpath, hq] at hslash
  have hrouted : u.routedPath = "/" := by simp [routedPath, hasPath, hpath, hscheme]
  refine ⟨hproper.routed, ?_, ?_⟩
  · simp [Uri.target, querySuffix, hrouted, hpath, hquery]
  · rw [hrouted]
    rfl

theorem Form.rooted (h : Form u) (hform : u.authority = none ∨ u.scheme.isSome = true)
    (hslash : u.target.toList.head? = some '/') : Rooted u := by
  cases h with
  | asterisk h =>
      subst h
      exact absurd hslash (by decide)
  | path hnone hproper hpath => exact .of_path hproper hpath
  | authority hnone hauthority =>
      rcases hform with hform | hform
      · rw [hform] at hauthority
        cases hauthority
      · rw [hnone] at hform
        cases hform
  | absolute scheme authority hscheme habsolute =>
      rcases habsolute.rooted with hempty | hpath
      · exact .of_empty habsolute.target (String.toList_eq_nil_iff.mp hempty)
          (by rw [hscheme]; rfl) hslash
      · exact .of_path habsolute.target hpath

/-! ## §3. Reading a URI back. -/

/-- Behind its scheme, a text is read from the authority on. -/
theorem parse?_http {rest : List Char} (hlength : text.utf8ByteSize ≤ maxLength)
    (htext : text.toList = "http://".toList ++ rest) :
    parse? text = readAbsolute "http" rest := by
  have hscheme : readScheme ("http://".toList ++ rest) = .found "http" rest := by
    have htake : dropIgnoringCase "http://" ("http://".toList ++ rest) = some rest := by
      have hstart : ("http://".toList ++ rest).take "http://".length = "http://".toList :=
        List.take_left' String.length_toList
      have hrest : ("http://".toList ++ rest).drop "http://".length = rest :=
        List.drop_left' String.length_toList
      rw [dropIgnoringCase, hstart, hrest, String.ofList_toList, if_pos]
      exact beq_self_eq_true _
    unfold readScheme
    rw [htake]
  unfold parse?
  rw [if_neg (Nat.not_lt.mpr hlength), htext]
  -- a text that starts with a scheme is neither empty nor an asterisk or a path
  split
  next hnil => cases hnil
  next hasterisk => exact absurd (List.cons.inj hasterisk).1 (by decide)
  next hslash => exact absurd (List.cons.inj hslash).1 (by decide)
  next => rw [hscheme]

/-- An absolute URI over HTTP with a path is read back from its text. -/
theorem parse?_text (hscheme : u.scheme = some "http") (habsolute : Absolute u authority)
    (hpath : u.path.toList.head? = some '/') (hlength : u.text.utf8ByteSize ≤ maxLength) :
    parse? u.text = some u := by
  have htext : u.text.toList
      = "http://".toList ++ (authority.toList ++ (u.path.toList ++ u.querySuffix.toList)) := by
    simp [Uri.text, hscheme, habsolute.eq, (routedPath_of_slash hpath).1]
  -- the authority ends where the path starts
  have htake : (authority.toList ++ (u.path.toList ++ u.querySuffix.toList)).takeWhile
      (fun c => !endsAuthority c) = authority.toList := by
    rw [List.takeWhile_append_of_pos fun c hc => by simp [habsolute.apart c hc]]
    obtain ⟨rest, hrest⟩ := List.head?_eq_some_iff.mp hpath
    simp [hrest, endsAuthority]
  rw [parse?_http hlength htext]
  unfold readAbsolute
  dsimp only
  rw [htake, List.drop_left, readTarget_written habsolute.target, if_neg, String.ofList_toList]
  · show some (⟨some "http", some authority, u.path, u.query⟩ : Uri) = some u
    rw [← hscheme, ← habsolute.eq]
  · simp [habsolute.nonempty, habsolute.valid]

/-! ## §4. Requests that are sent on. -/

/-- A text is what is left without its trailing slashes, and these slashes. -/
theorem exists_trailing_slashes (s : String) : ∃ n,
    s.toList = (withoutTrailingSlashes s).toList ++ List.replicate n '/'
      ∧ (withoutTrailingSlashes s).toList.getLast? ≠ some '/' := by
  have hstem : (withoutTrailingSlashes s).toList = s.toList.rdropWhile (· == '/') :=
    String.toList_ofList
  have hslashes : ∀ c ∈ s.toList.rtakeWhile (· == '/'), c = '/' := by
    intro c hc
    simpa using List.mem_rtakeWhile_imp hc
  refine ⟨(s.toList.rtakeWhile (· == '/')).length, ?_, ?_⟩
  · rw [hstem, ← List.eq_replicate_of_mem hslashes]
    exact List.rdropWhile_append_rtakeWhile.symm
  · rw [hstem]
    intro hlast
    obtain ⟨front, hfront⟩ := List.getLast?_eq_some_iff.mp hlast
    have hne : s.toList.rdropWhile (· == '/') ≠ [] := by simp [hfront]
    have hnot := List.rdropWhile_last_not (p := (· == '/')) s.toList hne
    simp [hfront] at hnot

/-- The text that a request is to be sent on under: the upstream without trailing slashes, and
behind it the target of the request. -/
def joinedText (base request : Uri) : String :=
  base.scheme.getD "" ++ "://" ++ base.authority.getD "" ++ withoutTrailingSlashes base.routedPath
    ++ request.target

/-- What it means that a request was mapped onto a base: scheme and authority are those of the
base, the path is that of the base without its trailing slashes and behind it that of the
request, and the query is that of the request. -/
structure MappedOnto (base request mapped : Uri) : Prop where
  scheme : mapped.scheme = base.scheme
  authority : mapped.authority = base.authority
  path : ∃ stem slashes, base.routedPath.toList = stem ++ List.replicate slashes '/'
    ∧ stem.getLast? ≠ some '/' ∧ mapped.path.toList = stem ++ request.routedPath.toList
  query : mapped.query = request.query

/-- The path of an absolute URI starts with a slash, as far as routes are concerned. -/
theorem Absolute.routedPath_head? (h : Absolute u authority) (hscheme : u.scheme.isSome = true) :
    u.routedPath.toList.head? = some '/' := by
  rcases h.rooted with hempty | hslash
  · simp [routedPath, hasPath, hscheme, String.toList_eq_nil_iff.mp hempty]
  · rw [(routedPath_of_slash hslash).1]
    exact hslash

theorem mapOnto_eq {base request : Uri} {scheme : String} (hscheme : base.scheme = some scheme)
    (hauthority : base.authority = some authority) :
    mapOnto base request
      = (readTarget (withoutTrailingSlashes base.routedPath ++ request.target).toList).map
        fun t => ⟨some scheme, some authority, t.1, t.2⟩ := by
  unfold mapOnto
  rw [hscheme, hauthority]
  dsimp only [bind, Option.bind]
  cases readTarget (withoutTrailingSlashes base.routedPath ++ request.target).toList <;> rfl

/-- A request is mapped onto an absolute base, and what comes out is absolute again. -/
theorem mapOnto_rooted {base request : Uri} (hscheme : base.scheme = some "http")
    (habsolute : Absolute base authority) (hrooted : Rooted request) :
    ∃ mapped, mapOnto base request = some mapped ∧ MappedOnto base request mapped
      ∧ mapped.text = joinedText base request ∧ Absolute mapped authority
      ∧ mapped.path.toList.head? = some '/' := by
  obtain ⟨slashes, hpath, hlast⟩ := exists_trailing_slashes base.routedPath
  let mapped : Uri := ⟨some "http", some authority,
    withoutTrailingSlashes base.routedPath ++ request.routedPath, request.query⟩
  have hsuffix : mapped.querySuffix = request.querySuffix := rfl
  have hbase := habsolute.target.routed.path
  have hproper : ProperTarget mapped.path mapped.query := by
    refine ⟨fun c hc => ?_, hrooted.proper.query⟩
    rcases List.mem_append.mp (String.toList_append ▸ hc) with hstem | hrequest
    · exact hbase c (hpath ▸ List.mem_append_left _ hstem)
    · exact hrooted.proper.path c hrequest
  have hhead : mapped.path.toList.head? = some '/' := by
    show (withoutTrailingSlashes base.routedPath ++ request.routedPath).toList.head? = _
    rw [String.toList_append]
    have hfirst := habsolute.routedPath_head? (by rw [hscheme]; rfl)
    rw [hpath] at hfirst
    -- without the slashes the path of the base may be empty, and then that of the request is first
    cases hstem : (withoutTrailingSlashes base.routedPath).toList with
    | nil => exact hrooted.slash
    | cons c rest =>
        rw [hstem] at hfirst
        exact hfirst
  have htarget : (withoutTrailingSlashes base.routedPath ++ request.target).toList
      = mapped.path.toList ++ mapped.querySuffix.toList := by
    rw [hrooted.target, ← String.append_assoc, String.toList_append, hsuffix]
  refine ⟨mapped, ?_, ⟨hscheme.symm, habsolute.eq.symm,
    ⟨_, slashes, hpath, hlast, String.toList_append⟩, rfl⟩, ?_,
    ⟨rfl, habsolute.nonempty, habsolute.valid, habsolute.apart, hproper, Or.inr hhead⟩, hhead⟩
  · rw [mapOnto_eq hscheme habsolute.eq, htarget, readTarget_written hproper]
    rfl
  · have hrouted : mapped.routedPath
        = withoutTrailingSlashes base.routedPath ++ request.routedPath :=
      (routedPath_of_slash hhead).1
    simp only [Uri.text, joinedText, hscheme, habsolute.eq, hrooted.target, hrouted, hsuffix,
      Option.getD_some, String.append_assoc]
    rfl

end Uri

/-! ## §5. The upstream of a route. -/

namespace RouteTable

variable {general : Policy} {settings : List Config.RouteSettings} {table : RouteTable}
  {route : Route}

/-- The upstream of a route is an absolute URI over HTTP. -/
theorem upstreamBase_absolute (h : ofSettings general settings = .ok table)
    (hroute : route ∈ table.routes) : route.upstreamBase.scheme = some "http"
      ∧ ∃ authority, Uri.Absolute route.upstreamBase authority := by
  obtain ⟨s, -, hs⟩ := exists_of_mem_routes h hroute
  obtain ⟨base, policy, hbase, -, rfl⟩ := Route.ofSettings_ok hs
  obtain ⟨hparse, hscheme, -⟩ := Route.upstreamOf_ok hbase
  exact ⟨hscheme, (Uri.parse?_form hparse).absolute_of_scheme (by rw [hscheme]; rfl)⟩

/-- **A request that is sent on keeps authority, path and query apart.**  Let a request be
given by a path and query, or by a URI with a scheme, so that its target starts with a slash.
It can be mapped onto the upstream of every route, and unless the text that comes out is longer
than a URI may be, it is read as that same URI. -/
theorem mapOnto_route (h : ofSettings general settings = .ok table)
    (hroute : route ∈ table.routes) {text : String} {request : Uri}
    (hrequest : Uri.parse? text = some request)
    (hform : request.authority = none ∨ request.scheme.isSome = true)
    (hslash : request.target.toList.head? = some '/')
    (hlength : (Uri.joinedText route.upstreamBase request).utf8ByteSize ≤ Uri.maxLength) :
    ∃ mapped, Uri.mapOnto route.upstreamBase request = some mapped
      ∧ Uri.MappedOnto route.upstreamBase request mapped
      ∧ mapped.text = Uri.joinedText route.upstreamBase request
      ∧ Uri.parse? mapped.text = some mapped := by
  obtain ⟨hscheme, authority, habsolute⟩ := upstreamBase_absolute h hroute
  have hrooted := (Uri.parse?_form hrequest).rooted hform hslash
  obtain ⟨mapped, hmap, honto, htext, hmapped, hpath⟩ :=
    Uri.mapOnto_rooted hscheme habsolute hrooted
  refine ⟨mapped, hmap, honto, htext, Uri.parse?_text ?_ hmapped hpath ?_⟩
  · rw [honto.scheme, hscheme]
  · rw [htext]
    exact hlength

/-- Settings with one route, whose upstream has user information, a path and a query. -/
def sharedUpstream : Config.RouteSettings :=
  ⟨"api", none, none, "http://u@b.test/base//?x=1", 0, true, none⟩

/-- The same of a request whose path and query look like other URIs. -/
theorem mapOnto_route_of_nested_uri : ∃ table : RouteTable, ∃ route request mapped,
    ofSettings ⟨∅, ∅⟩ [sharedUpstream] = .ok table ∧ route ∈ table.routes
      ∧ Uri.parse? "http://proxy.test//evil.test/@x?y=http://z/?w" = some request
      ∧ Uri.mapOnto route.upstreamBase request = some mapped
      ∧ mapped.authority = some "u@b.test"
      ∧ mapped.text = "http://u@b.test/base//evil.test/@x?y=http://z/?w"
      ∧ Uri.parse? mapped.text = some mapped := by
  have hupstream : Config.isUpstream sharedUpstream.upstreamUri = true := by decide +kernel
  obtain ⟨table, h⟩ : ∃ table, ofSettings ⟨∅, ∅⟩ [sharedUpstream] = .ok table := by
    refine exists_ofSettings_iff.mpr fun s hs => ?_
    obtain rfl := List.mem_singleton.mp hs
    exact ⟨hupstream, fun ⟨rules, hrules, _⟩ => by cases hrules⟩
  obtain ⟨route, hroute⟩ : ∃ route, route ∈ table.routes := by
    have hlength := (names_of_ofSettings h).length_eq
    simp only [List.length_map, List.length_singleton] at hlength
    exact List.exists_mem_of_length_pos (by omega)
  obtain ⟨s, hs, hmade⟩ := exists_of_mem_routes h hroute
  obtain rfl := List.mem_singleton.mp hs
  obtain ⟨base, policy, hbase, -, rfl⟩ := Route.ofSettings_ok hmade
  have hparse : Uri.parse? sharedUpstream.upstreamUri
      = some ⟨some "http", some "u@b.test", "/base//", some "x=1"⟩ := by decide +kernel
  obtain rfl := Option.some.inj ((Route.upstreamOf_ok hbase).1.symm.trans hparse)
  have hrequest : Uri.parse? "http://proxy.test//evil.test/@x?y=http://z/?w"
      = some ⟨some "http", some "proxy.test", "//evil.test/@x", some "y=http://z/?w"⟩ := by
    decide +kernel
  have hjoined : Uri.joinedText ⟨some "http", some "u@b.test", "/base//", some "x=1"⟩
      ⟨some "http", some "proxy.test", "//evil.test/@x", some "y=http://z/?w"⟩
      = "http://u@b.test/base//evil.test/@x?y=http://z/?w" := by decide +kernel
  obtain ⟨mapped, hmap, honto, htext, hback⟩ := mapOnto_route h hroute hrequest (Or.inr rfl)
    (by decide +kernel) (hjoined ▸ by decide +kernel)
  exact ⟨table, _, _, mapped, h, hroute, hrequest, hmap, honto.authority, htext.trans hjoined,
    hback⟩

end RouteTable

end Wiretap
