/-
  Wiretap.Proofs.Startup
  ──────────────────────
  **WHAT VALIDATION IS WORTH AT THE START.**

  The settings are looked through before anything is made of them, and all problems are
  listed; the routes are made one by one, and the first failure ends that.  Both judge an
  upstream and the headers of a route alike, so a route fails just when it is reported, and
  settings without problems start as far as the files allow.  One thing is not looked at: how
  large the queue is to be.

    • `Config.mem_routesProblems_iff`  — what is reported of which route,
    • `Route.ofSettings_error_iff`     — when a single route cannot be made,
    • `RouteTable.ofSettings_error_iff` — when a table cannot be made, and what is to blame,
    • `Service.start_of_valid`         — how a start from settings without problems ends.
-/
import Mathlib.Data.List.Forall2
import Wiretap.Service.Start

namespace Wiretap

/-! ## §1. What is reported of routes. -/

namespace Config

/-- What is reported of a route whose upstream will not do. -/
def RouteSettings.upstreamProblem (r : RouteSettings) : Problem :=
  .invalidUpstream r.name r.upstreamUri

/-- What is reported of a route whose header rules make no policy. -/
def RouteSettings.headersProblem (r : RouteSettings) : Problem :=
  .ambiguousPolicy ("routes." ++ r.name ++ ".headers")

/-- Whether the header rules of a route, if it has any, make no policy. -/
def RouteSettings.IsAmbiguous (r : RouteSettings) : Prop :=
  ∃ rules, r.headers = some rules ∧ rules.toPolicy = .error .ambiguous

variable {taken : List String} {r : RouteSettings} {p : Problem}

theorem mem_require_iff {holds : Bool} {problem : Problem} :
    p ∈ require holds problem ↔ holds = false ∧ p = problem := by
  cases holds <;> simp [require]

/-- Rules that make no policy have entries on both lists; there is no other reason. -/
theorem toPolicy_isOk_eq_false_iff {rules : HeaderRules} :
    rules.toPolicy.isOk = false ↔ rules.toPolicy = .error .ambiguous := by
  cases rules.toPolicy with
  | ok policy => simp [Except.isOk, Except.toBool]
  | error e =>
      cases e
      simp [Except.isOk, Except.toBool]

/-- A route is reported for its name, for its upstream and for its headers. -/
theorem mem_routeProblems_iff :
    p ∈ routeProblems taken r ↔ (r.name ∈ taken ∧ p = .duplicateRoute r.name)
      ∨ (isUpstream r.upstreamUri = false ∧ p = r.upstreamProblem)
      ∨ (r.IsAmbiguous ∧ p = r.headersProblem) := by
  unfold routeProblems RouteSettings.IsAmbiguous
  simp only [List.mem_append, mem_require_iff, or_assoc, Bool.not_eq_false',
    List.contains_iff_mem]
  cases r.headers with
  | none => simp [RouteSettings.upstreamProblem]
  | some rules =>
      simp [policyProblems, mem_require_iff, toPolicy_isOk_eq_false_iff,
        RouteSettings.upstreamProblem, RouteSettings.headersProblem]

theorem upstreamProblem_mem_iff :
    r.upstreamProblem ∈ routeProblems taken r ↔ isUpstream r.upstreamUri = false := by
  simp [mem_routeProblems_iff, RouteSettings.upstreamProblem, RouteSettings.headersProblem]

theorem headersProblem_mem_iff :
    r.headersProblem ∈ routeProblems taken r ↔ r.IsAmbiguous := by
  simp [mem_routeProblems_iff, RouteSettings.upstreamProblem, RouteSettings.headersProblem]

/-- What is reported of routes is reported of one of them, behind the names of those before. -/
theorem mem_routesProblems_iff {routes : List RouteSettings} :
    p ∈ routesProblems taken routes ↔ ∃ before r after, routes = before ++ r :: after
      ∧ p ∈ routeProblems ((before.map (·.name)).reverse ++ taken) r := by
  induction routes generalizing taken with
  | nil => simp [routesProblems]
  | cons first rest ih =>
      rw [routesProblems, List.mem_append, ih]
      constructor
      · rintro (hfirst | ⟨before, r, after, rfl, hmem⟩)
        · exact ⟨[], first, rest, rfl, hfirst⟩
        · exact ⟨first :: before, r, after, rfl, by simpa using hmem⟩
      · rintro ⟨before, r, after, hsplit, hmem⟩
        cases before with
        | nil =>
            obtain ⟨rfl, rfl⟩ := List.cons.inj hsplit
            exact Or.inl hmem
        | cons head before =>
            obtain ⟨rfl, rfl⟩ := List.cons.inj hsplit
            exact Or.inr ⟨before, r, after, rfl, by simpa using hmem⟩

end Config

/-! ## §2. One route. -/

namespace Route

variable {general : Policy} {s : Config.RouteSettings} {route : Route} {failure : RouteFailure}

/-- The base of a route is found just when validation accepts its text. -/
theorem upstreamOf_cases (s : Config.RouteSettings) :
    (Config.isUpstream s.upstreamUri = true ∧ ∃ u, upstreamOf s = .ok u)
      ∨ (Config.isUpstream s.upstreamUri = false
        ∧ upstreamOf s = .error (.invalidUpstream s.name s.upstreamUri)) := by
  unfold Config.isUpstream upstreamOf
  cases Uri.parse? s.upstreamUri with
  | none => exact Or.inr ⟨rfl, rfl⟩
  | some u =>
      -- one test asks for what the other refuses
      by_cases hplain : u.scheme = some "http" ∧ u.authority.isSome = true
      · refine Or.inl ⟨by simp [hplain], u, ?_⟩
        simp [hplain.1, Option.isSome_iff_ne_none.mp hplain.2]
      · refine Or.inr ⟨by simpa using hplain, if_pos ?_⟩
        simp only [not_and, Bool.not_eq_true, Option.isSome_eq_false_iff] at hplain
        by_cases hscheme : u.scheme = some "http"
        · simp [hscheme, hplain hscheme]
        · simp [hscheme]

/-- The policy of a route is made unless its own rules are ambiguous. -/
theorem policyOf_cases (general : Policy) (s : Config.RouteSettings) :
    (¬ s.IsAmbiguous ∧ ∃ policy, policyOf general s = .ok policy)
      ∨ (s.IsAmbiguous ∧ policyOf general s = .error (.policy s.name .ambiguous)) := by
  unfold Config.RouteSettings.IsAmbiguous policyOf
  cases s.headers with
  | none => exact Or.inl ⟨by simp, general, rfl⟩
  | some rules =>
      cases hpolicy : rules.toPolicy with
      | ok own => exact Or.inl ⟨by simp [hpolicy], general.merge own, by simp [hpolicy]⟩
      | error e =>
          cases e
          exact Or.inr ⟨⟨rules, rfl, hpolicy⟩, by simp [hpolicy]⟩

/-- What is to blame when a route cannot be made: its upstream first, and then its headers. -/
def Blames (s : Config.RouteSettings) : RouteFailure → Prop
  | .invalidUpstream name value =>
    Config.isUpstream s.upstreamUri = false ∧ name = s.name ∧ value = s.upstreamUri
  | .policy name _ => Config.isUpstream s.upstreamUri = true ∧ s.IsAmbiguous ∧ name = s.name

/-- A route fails for what validation reports of it, an upstream before headers. -/
theorem ofSettings_error_iff : ofSettings general s = .error failure ↔ Blames s failure := by
  unfold ofSettings
  rcases upstreamOf_cases s with ⟨hvalid, u, hu⟩ | ⟨hinvalid, hu⟩
  · rcases policyOf_cases general s with ⟨hfine, policy, hp⟩ | ⟨hambiguous, hp⟩
    · rw [hu, hp]
      cases failure <;> simp [bind, Except.bind, pure, Except.pure, Blames, hvalid, hfine]
    · rw [hu, hp]
      cases failure with
      | invalidUpstream name value => simp [bind, Except.bind, Blames, hvalid]
      | policy name error =>
          cases error
          simp [bind, Except.bind, Blames, hvalid, hambiguous, eq_comm]
  · rw [hu]
    cases failure <;> simp [bind, Except.bind, Blames, hinvalid, eq_comm]

/-- Nothing is to blame for a route that validation has nothing to say about. -/
theorem exists_ofSettings_iff : (∃ route, ofSettings general s = .ok route)
    ↔ Config.isUpstream s.upstreamUri = true ∧ ¬ s.IsAmbiguous := by
  unfold ofSettings
  rcases upstreamOf_cases s with ⟨hvalid, u, hu⟩ | ⟨hinvalid, hu⟩
  · rcases policyOf_cases general s with ⟨hfine, policy, hp⟩ | ⟨hambiguous, hp⟩
    · rw [hu, hp]
      exact iff_of_true ⟨_, rfl⟩ ⟨hvalid, hfine⟩
    · rw [hu, hp]
      exact iff_of_false (fun ⟨_, h⟩ => by cases h) fun h => h.2 hambiguous
  · rw [hu]
    refine iff_of_false (fun ⟨_, h⟩ => by cases h) fun h => ?_
    rw [hinvalid] at h
    cases h.1

/-- A base that is found is the URI of its text, and names a host to be reached over HTTP. -/
theorem upstreamOf_ok {base : Uri} (h : upstreamOf s = .ok base) :
    Uri.parse? s.upstreamUri = some base ∧ base.scheme = some "http"
      ∧ base.authority.isSome = true := by
  unfold upstreamOf at h
  cases hu : Uri.parse? s.upstreamUri with
  | none =>
      rw [hu] at h
      cases h
  | some u =>
      rw [hu] at h
      dsimp only at h
      split at h
      next => cases h
      next hplain =>
        cases h
        simp only [Bool.or_eq_true, bne_iff_ne, not_or, not_not, Bool.not_eq_true,
          Option.isNone_eq_false_iff] at hplain
        exact ⟨rfl, hplain⟩

/-- A route is made of what its settings say. -/
theorem ofSettings_ok (h : ofSettings general s = .ok route) :
    ∃ base policy, upstreamOf s = .ok base ∧ policyOf general s = .ok policy
      ∧ route = ⟨s.name, base, s.priority, s.capture, policy, s.host.map Text.lowercase,
        s.pathPrefix⟩ := by
  unfold ofSettings at h
  cases hu : upstreamOf s with
  | error e =>
      rw [hu] at h
      cases h
  | ok base =>
      cases hp : policyOf general s with
      | error e =>
          rw [hu, hp] at h
          cases h
      | ok policy =>
          rw [hu, hp] at h
          cases h
          exact ⟨base, policy, rfl, rfl, rfl⟩

end Route

/-! ## §3. Tables. -/

section Traversal

variable {ε α β : Type} {f : α → Except ε β} {xs : List α} {ys : List β} {e : ε}

/-- A traversal that succeeds does so at each item. -/
theorem forall₂_of_mapM_ok (h : xs.mapM f = .ok ys) :
    List.Forall₂ (fun x y => f x = .ok y) xs ys := by
  induction xs generalizing ys with
  | nil =>
      cases h
      exact .nil
  | cons x rest ih =>
      rw [List.mapM_cons] at h
      cases hx : f x with
      | error e =>
          rw [hx] at h
          cases h
      | ok y =>
          cases hrest : rest.mapM f with
          | error e =>
              rw [hx, hrest] at h
              cases h
          | ok ys' =>
              rw [hx, hrest] at h
              cases h
              exact .cons hx (ih hrest)

/-- Of two lists whose items correspond, each item of the second comes from one of the first. -/
theorem exists_of_mem_forall₂ {R : α → β → Prop} (h : List.Forall₂ R xs ys) {y : β}
    (hy : y ∈ ys) : ∃ x ∈ xs, R x y := by
  induction h with
  | nil => cases hy
  | cons hxy hrest ih =>
      rcases List.mem_cons.mp hy with rfl | hy
      · exact ⟨_, List.mem_cons_self, hxy⟩
      · obtain ⟨x, hx, hr⟩ := ih hy
        exact ⟨x, List.mem_cons_of_mem _ hx, hr⟩

/-- A traversal fails with the first item that does. -/
theorem mapM_error_iff : xs.mapM f = .error e ↔ ∃ before x after, xs = before ++ x :: after
    ∧ (∀ y ∈ before, ∃ b, f y = .ok b) ∧ f x = .error e := by
  induction xs with
  | nil => simp [pure, Except.pure]
  | cons first rest ih =>
      rw [List.mapM_cons]
      cases hfirst : f first with
      | error e' =>
          constructor
          · rintro ⟨⟩
            exact ⟨[], first, rest, rfl, by simp, hfirst⟩
          · rintro ⟨before, x, after, hsplit, hbefore, hx⟩
            -- nothing stands before an item that fails
            cases before with
            | nil =>
                obtain ⟨rfl, rfl⟩ := List.cons.inj hsplit
                rw [hfirst] at hx
                cases hx
                rfl
            | cons head before =>
                obtain ⟨rfl, rfl⟩ := List.cons.inj hsplit
                obtain ⟨b, hb⟩ := hbefore first List.mem_cons_self
                rw [hfirst] at hb
                cases hb
      | ok b =>
          have hstep : (do let ys ← rest.mapM f; pure (b :: ys) : Except ε (List β)) = .error e
              ↔ rest.mapM f = .error e := by
            cases rest.mapM f <;> simp [bind, Except.bind, pure, Except.pure]
          refine hstep.trans (ih.trans ⟨?_, ?_⟩)
          · rintro ⟨before, x, after, rfl, hbefore, hx⟩
            exact ⟨first :: before, x, after, rfl,
              List.forall_mem_cons.mpr ⟨⟨b, hfirst⟩, hbefore⟩, hx⟩
          · rintro ⟨before, x, after, hsplit, hbefore, hx⟩
            cases before with
            | nil =>
                obtain ⟨rfl, rfl⟩ := List.cons.inj hsplit
                rw [hfirst] at hx
                cases hx
            | cons head before =>
                obtain ⟨rfl, rfl⟩ := List.cons.inj hsplit
                exact ⟨before, x, after, rfl, (List.forall_mem_cons.mp hbefore).2, hx⟩

end Traversal

namespace RouteTable

variable {general : Policy} {settings : List Config.RouteSettings} {table : RouteTable}
  {failure : RouteFailure}

/-- A table holds the routes of its settings, one of each, sorted by priority. -/
theorem sorted_of_ofSettings (h : ofSettings general settings = .ok table) :
    ∃ routes, List.Forall₂ (fun s route => Route.ofSettings general s = .ok route) settings routes
      ∧ table.routes = routes.mergeSort fun a b => b.priority ≤ a.priority := by
  unfold ofSettings at h
  cases hroutes : settings.mapM (Route.ofSettings general) with
  | error e =>
      rw [hroutes] at h
      cases h
  | ok routes =>
      rw [hroutes] at h
      cases h
      exact ⟨routes, forall₂_of_mapM_ok hroutes, rfl⟩

theorem routes_of_ofSettings (h : ofSettings general settings = .ok table) :
    ∃ routes, List.Forall₂ (fun s route => Route.ofSettings general s = .ok route) settings routes
      ∧ table.routes.Perm routes := by
  obtain ⟨routes, hmade, hsorted⟩ := sorted_of_ofSettings h
  exact ⟨routes, hmade, hsorted ▸ List.mergeSort_perm routes _⟩

/-- Every route of a table was made of settings. -/
theorem exists_of_mem_routes (h : ofSettings general settings = .ok table) {route : Route}
    (hroute : route ∈ table.routes) : ∃ s ∈ settings, Route.ofSettings general s = .ok route := by
  obtain ⟨routes, hmade, hperm⟩ := routes_of_ofSettings h
  exact exists_of_mem_forall₂ hmade (hperm.mem_iff.mp hroute)

/-- The routes of a table have the names that the settings give them. -/
theorem names_of_ofSettings (h : ofSettings general settings = .ok table) :
    (table.routes.map (·.name)).Perm (settings.map (·.name)) := by
  obtain ⟨routes, hmade, hperm⟩ := routes_of_ofSettings h
  have hnames : settings.map (·.name) = routes.map (·.name) := by
    rw [← List.forall₂_eq_eq_eq, List.forall₂_map_left_iff, List.forall₂_map_right_iff]
    refine hmade.imp fun s route hroute => ?_
    obtain ⟨base, policy, -, -, rfl⟩ := Route.ofSettings_ok hroute
    rfl
  rw [hnames]
  exact hperm.map _

/-- A table cannot be made just when a route cannot, and the first of these is to blame. -/
theorem ofSettings_error_iff : ofSettings general settings = .error failure ↔
    ∃ before r after, settings = before ++ r :: after
      ∧ (∀ other ∈ before, Config.isUpstream other.upstreamUri = true ∧ ¬ other.IsAmbiguous)
      ∧ Route.Blames r failure := by
  have hmap : ofSettings general settings = .error failure
      ↔ settings.mapM (Route.ofSettings general) = .error failure := by
    unfold ofSettings
    cases settings.mapM (Route.ofSettings general) <;>
      simp [bind, Except.bind, pure, Except.pure]
  simp only [hmap, mapM_error_iff, Route.exists_ofSettings_iff, Route.ofSettings_error_iff]

/-- A table can be made just when each route can. -/
theorem exists_ofSettings_iff : (∃ table, ofSettings general settings = .ok table)
    ↔ ∀ r ∈ settings, Config.isUpstream r.upstreamUri = true ∧ ¬ r.IsAmbiguous := by
  constructor
  · rintro ⟨table, h⟩
    obtain ⟨routes, hmade, -⟩ := routes_of_ofSettings h
    exact ((List.forall₂_and_left _ _).mp (hmade.imp fun r route hroute =>
      ⟨Route.exists_ofSettings_iff.mp ⟨route, hroute⟩, hroute⟩)).1
  · intro h
    cases hmade : ofSettings general settings with
    | ok table => exact ⟨table, rfl⟩
    | error failure =>
        obtain ⟨before, r, after, rfl, -, hblame⟩ := ofSettings_error_iff.mp hmade
        obtain ⟨hvalid, hfine⟩ := h r (by simp)
        cases failure with
        | invalidUpstream name value => exact absurd hblame.1 (by simp [hvalid])
        | policy name error => exact absurd hblame.2.1 hfine

end RouteTable

/-! ## §4. All settings. -/

namespace Config

variable {s : Settings} {r : RouteSettings} {p : Problem}

/-- Whether a problem is one that keeps a route from being made. -/
def Problem.OfRoute : Problem → Prop
  | .invalidUpstream _ _ => True
  | .ambiguousPolicy scope => scope ≠ "capture.headers"
  | _ => False

theorem ofRoute_upstreamProblem (r : RouteSettings) : r.upstreamProblem.OfRoute := trivial

theorem ofRoute_headersProblem (r : RouteSettings) : r.headersProblem.OfRoute := by
  intro hscope
  have hhead := congrArg (fun text => text.toList.head?) hscope
  simp [String.toList_append] at hhead

/-- Problems that keep a route from being made are found among those of the routes. -/
theorem mem_problems_iff (hroute : p.OfRoute) :
    p ∈ s.problems ↔ p ∈ routesProblems [] s.routes := by
  have hother : ∀ (holds : Bool) (problem : Problem), ¬ problem.OfRoute →
      p ∉ require holds problem := by
    intro holds problem hnot hmem
    rw [(mem_require_iff.mp hmem).2] at hroute
    exact hnot hroute
  have hsinks : p ∉ s.accessLog.sinks.zipIdx.flatMap fun item =>
      sinkProblems item.2 item.1 := by
    rw [List.mem_flatMap]
    rintro ⟨⟨sink, index⟩, -, hmem⟩
    cases sink with
    | tracing => cases hmem
    | jsonLines path included most =>
        rcases List.mem_append.mp hmem with hpath | hmost
        · exact hother _ _ id hpath
        · exact hother _ _ id hmost
  unfold Settings.problems
  rw [List.mem_append, or_iff_right]
  simp only [List.mem_append, not_or]
  refine ⟨⟨⟨⟨⟨⟨hother _ _ id, ?_⟩, hother _ _ id⟩, hother _ _ id⟩, ?_⟩, hother _ _ id⟩, hsinks⟩
  · split
    · exact hother _ _ id
    · exact List.not_mem_nil
  · exact hother _ _ fun hscope => hscope rfl

/-- What is reported of a route that stands behind others. -/
def RouteSettings.problemsBehind (r : RouteSettings) (before : List RouteSettings) :
    List Problem :=
  routeProblems (before.map (·.name)).reverse r

/-- Whether some problems name the upstream or the headers of a route. -/
def Reports (problems : List Problem) (r : RouteSettings) : Prop :=
  r.upstreamProblem ∈ problems ∨ r.headersProblem ∈ problems

/-- A problem that keeps a route from being made is reported of a route that has it. -/
theorem exists_of_mem_routesProblems {taken : List String} {routes : List RouteSettings}
    (hroute : p.OfRoute) (h : p ∈ routesProblems taken routes) :
    ∃ r ∈ routes, isUpstream r.upstreamUri = false ∨ r.IsAmbiguous := by
  obtain ⟨before, r, after, rfl, hmem⟩ := mem_routesProblems_iff.mp h
  refine ⟨r, by simp, ?_⟩
  rcases mem_routeProblems_iff.mp hmem with ⟨-, rfl⟩ | ⟨hinvalid, -⟩ | ⟨hambiguous, -⟩
  · exact absurd hroute id
  · exact Or.inl hinvalid
  · exact Or.inr hambiguous

/-- Routes are reported just when one of them cannot be made. -/
theorem exists_reports_iff {routes : List RouteSettings} :
    (∃ r ∈ routes, Reports (routesProblems [] routes) r)
      ↔ ∃ r ∈ routes, isUpstream r.upstreamUri = false ∨ r.IsAmbiguous := by
  constructor
  · rintro ⟨r, -, hupstream | hheaders⟩
    · exact exists_of_mem_routesProblems (ofRoute_upstreamProblem r) hupstream
    · exact exists_of_mem_routesProblems (ofRoute_headersProblem r) hheaders
  · rintro ⟨r, hr, hbad⟩
    obtain ⟨before, after, hsplit⟩ := List.append_of_mem hr
    refine ⟨r, hr, hbad.imp (fun hinvalid => ?_) fun hambiguous => ?_⟩
    · exact mem_routesProblems_iff.mpr
        ⟨before, r, after, hsplit, upstreamProblem_mem_iff.mpr hinvalid⟩
    · exact mem_routesProblems_iff.mpr
        ⟨before, r, after, hsplit, headersProblem_mem_iff.mpr hambiguous⟩

theorem reports_problems_iff :
    Reports s.problems r ↔ Reports (routesProblems [] s.routes) r := by
  unfold Reports
  rw [mem_problems_iff (ofRoute_upstreamProblem r), mem_problems_iff (ofRoute_headersProblem r)]

/-- Where nothing is reported of some routes, they have different names, and none of the
names that were taken before. -/
theorem names_of_routesProblems_eq_nil {taken : List String} {routes : List RouteSettings}
    (h : routesProblems taken routes = []) :
    (routes.map (·.name)).Nodup ∧ ∀ r ∈ routes, r.name ∉ taken := by
  induction routes generalizing taken with
  | nil => simp
  | cons first rest ih =>
      rw [routesProblems, List.append_eq_nil_iff] at h
      obtain ⟨hrest, hnew⟩ := ih h.2
      have hfirst : first.name ∉ taken := fun hmem =>
        List.ne_nil_of_mem (mem_routeProblems_iff.mpr (Or.inl ⟨hmem, rfl⟩)) h.1
      constructor
      · rw [List.map_cons, List.nodup_cons]
        refine ⟨fun hmem => ?_, hrest⟩
        obtain ⟨r, hr, hname⟩ := List.mem_map.mp hmem
        exact hnew r hr (List.mem_cons.mpr (Or.inl hname))
      · exact List.forall_mem_cons.mpr
          ⟨hfirst, fun r hr hmem => hnew r hr (List.mem_cons_of_mem _ hmem)⟩

/-- Settings without problems have a policy and routes that can all be made, under different
names. -/
theorem parts_of_valid (h : s.problems = []) :
    (∃ policy, s.capture.headers.toPolicy = .ok policy)
      ∧ (∀ r ∈ s.routes, isUpstream r.upstreamUri = true ∧ ¬ r.IsAmbiguous)
      ∧ (s.routes.map (·.name)).Nodup := by
  unfold Settings.problems at h
  simp only [List.append_eq_nil_iff] at h
  obtain ⟨⟨⟨⟨-, hpolicy⟩, -⟩, -⟩, hroutes⟩ := h
  refine ⟨?_, fun r hr => ?_, (names_of_routesProblems_eq_nil hroutes).1⟩
  · cases hmade : s.capture.headers.toPolicy with
    | ok policy => exact ⟨policy, rfl⟩
    | error e => simp [policyProblems, require, hmade, Except.isOk, Except.toBool] at hpolicy
  · have hnone : ¬ (isUpstream r.upstreamUri = false ∨ r.IsAmbiguous) := fun hbad => by
      obtain ⟨other, -, hreport⟩ := exists_reports_iff.mpr ⟨r, hr, hbad⟩
      rw [hroutes] at hreport
      rcases hreport with hmem | hmem <;> cases hmem
    rw [not_or, Bool.not_eq_false] at hnone
    exact hnone

end Config

namespace RouteTable

variable {general : Policy} {settings : List Config.RouteSettings} {failure : RouteFailure}

/-- A table cannot be made just when validation reports one of its routes. -/
theorem exists_error_iff : (∃ failure, ofSettings general settings = .error failure)
    ↔ ∃ r ∈ settings, Config.Reports (Config.routesProblems [] settings) r := by
  have hmade : (∃ failure, ofSettings general settings = .error failure)
      ↔ ¬ ∃ table, ofSettings general settings = .ok table := by
    cases ofSettings general settings <;> simp
  rw [Config.exists_reports_iff, hmade, exists_ofSettings_iff]
  simp only [not_forall, not_and_or, not_not, Bool.not_eq_true, exists_prop]

/-- The first route that validation reports is to blame, and its upstream before its headers. -/
theorem error_iff_first_reported : ofSettings general settings = .error failure ↔
    ∃ before r after, settings = before ++ r :: after
      ∧ (∀ other ∈ before, ¬ Config.Reports (Config.routesProblems [] before) other)
      ∧ ((r.upstreamProblem ∈ r.problemsBehind before
            ∧ failure = .invalidUpstream r.name r.upstreamUri)
          ∨ (r.upstreamProblem ∉ r.problemsBehind before
            ∧ r.headersProblem ∈ r.problemsBehind before
            ∧ failure = .policy r.name .ambiguous)) := by
  have hblame : ∀ (before : List Config.RouteSettings) (r : Config.RouteSettings),
      Route.Blames r failure ↔ (r.upstreamProblem ∈ r.problemsBehind before
            ∧ failure = .invalidUpstream r.name r.upstreamUri)
          ∨ (r.upstreamProblem ∉ r.problemsBehind before
            ∧ r.headersProblem ∈ r.problemsBehind before
            ∧ failure = .policy r.name .ambiguous) := by
    intro before r
    unfold Config.RouteSettings.problemsBehind
    rw [Config.upstreamProblem_mem_iff, Config.headersProblem_mem_iff, Bool.not_eq_false]
    cases failure with
    | invalidUpstream name value => simp [Route.Blames]
    | policy name error =>
        cases error
        simp [Route.Blames]
  have hclean : ∀ before : List Config.RouteSettings,
      (∀ other ∈ before, Config.isUpstream other.upstreamUri = true ∧ ¬ other.IsAmbiguous)
        ↔ ∀ other ∈ before, ¬ Config.Reports (Config.routesProblems [] before) other := by
    intro before
    have hnone : (¬ ∃ r ∈ before, Config.Reports (Config.routesProblems [] before) r)
        ↔ ¬ ∃ r ∈ before, Config.isUpstream r.upstreamUri = false ∨ r.IsAmbiguous :=
      not_congr Config.exists_reports_iff
    simp only [not_exists, not_and, not_or, Bool.not_eq_false] at hnone
    exact hnone.symm
  rw [ofSettings_error_iff]
  refine exists_congr fun before => exists_congr fun r => exists_congr fun after => ?_
  rw [hclean before, hblame before r]

end RouteTable

/-! ## §5. Starting. -/

/-- A failure of the files, not of what the settings say. -/
def StartFailure.OfFiles : StartFailure → Prop
  | .capture _ => True
  | .sinks _ _ => True
  | _ => False

/-- Whether the queue, if there is to be one, can have room for as many records as asked. -/
def Config.AccessLog.IsHoldable (a : Config.AccessLog) : Prop :=
  a.mode = .queued → a.queueCapacity ≤ Queue.maxCapacity

namespace Service

variable {disk : Disk} {s : Config.Settings} {failure : StartFailure}

/-- Whether the directory of the buffers and the log files can be opened. -/
def CanOpenFiles (disk : Disk) (s : Config.Settings) : Prop :=
  ∃ store, Store.ofSettings disk s.capture = .ok store
    ∧ ∃ opened, Sink.allOfSettings store.disk s.accessLog.sinks = .ok opened

/-- A queue is made unless it is to be too large. -/
theorem queue_cases (a : Config.AccessLog) :
    (a.IsHoldable ∧ ∃ queue, Queue.ofSettings a = .ok queue)
      ∨ (¬ a.IsHoldable ∧ Queue.ofSettings a = .error .queue) := by
  unfold Config.AccessLog.IsHoldable Queue.ofSettings
  cases a.mode with
  | direct => exact Or.inl ⟨nofun, none, rfl⟩
  | queued =>
      by_cases hlarge : Queue.maxCapacity < a.queueCapacity
      · exact Or.inr ⟨fun h => Nat.not_lt.mpr (h rfl) hlarge, by simp [Queue.ofCapacity?, hlarge]⟩
      · exact Or.inl ⟨fun _ => Nat.not_lt.mp hlarge, by simp [Queue.ofCapacity?, hlarge]⟩

/-- The three ways in which a start from settings without problems can end. -/
theorem start_cases (h : s.problems = []) (disk : Disk) :
    (¬ CanOpenFiles disk s ∧ ∃ failure, start disk s = .error failure ∧ failure.OfFiles)
      ∨ (CanOpenFiles disk s ∧ ¬ s.accessLog.IsHoldable ∧ start disk s = .error .queue)
      ∨ (CanOpenFiles disk s ∧ s.accessLog.IsHoldable ∧ ∃ service, start disk s = .ok service) := by
  obtain ⟨⟨policy, hpolicy⟩, hroutes, -⟩ := Config.parts_of_valid h
  obtain ⟨table, htable⟩ : ∃ table, RouteTable.ofSettings policy s.routes = .ok table :=
    RouteTable.exists_ofSettings_iff.mpr hroutes
  unfold CanOpenFiles start
  cases hstore : Store.ofSettings disk s.capture with
  | error e => exact Or.inl ⟨by simp, .capture e, rfl, trivial⟩
  | ok store =>
      cases hsinks : Sink.allOfSettings store.disk s.accessLog.sinks with
      | error e =>
          refine Or.inl ⟨by simp [hsinks], .sinks e.1 e.2, ?_, trivial⟩
          simp [orFail, hsinks, bind, Except.bind]
      | ok opened =>
          refine Or.inr ?_
          rcases queue_cases s.accessLog with ⟨hroom, queue, hqueue⟩ | ⟨hlarge, hqueue⟩
          · refine Or.inr ⟨⟨store, rfl, opened, hsinks⟩, hroom, ?_⟩
            simp [orFail, hsinks, hqueue, hpolicy, htable, bind, Except.bind, pure, Except.pure]
          · refine Or.inl ⟨⟨store, rfl, opened, hsinks⟩, hlarge, ?_⟩
            simp [orFail, hsinks, hqueue, bind, Except.bind]

/-- **Settings without problems start, if the files can be opened and the queue is not too
large.**  Validation and the start agree on everything else.  From settings without problems
come a policy and a table with one route for each that is configured, under different names; a
start fails only for the files or for the size of the queue, which validation compares with zero
and with nothing else.  And for any routes whatever, a table cannot be made just when validation
reports the upstream or the headers of one of them: the first such route is to blame, for its
upstream if that is reported. -/
theorem start_of_valid (disk : Disk) (s : Config.Settings) (general : Policy) :
    (s.problems = [] →
      (∃ policy table, s.capture.headers.toPolicy = .ok policy
        ∧ RouteTable.ofSettings policy s.routes = .ok table
        ∧ (∃ routes, List.Forall₂ (fun r route => Route.ofSettings policy r = .ok route) s.routes
            routes ∧ table.routes.Perm routes)
        ∧ (table.routes.map (·.name)).Nodup)
      ∧ ((∃ service, start disk s = .ok service)
          ↔ CanOpenFiles disk s ∧ s.accessLog.IsHoldable)
      ∧ ∀ failure, start disk s = .error failure → (failure.OfFiles ∧ ¬ CanOpenFiles disk s)
          ∨ (failure = .queue ∧ ¬ s.accessLog.IsHoldable))
    ∧ ((∃ failure, RouteTable.ofSettings general s.routes = .error failure)
        ↔ ∃ r ∈ s.routes, Config.Reports s.problems r)
    ∧ ∀ failure, RouteTable.ofSettings general s.routes = .error failure ↔
        ∃ before r after, s.routes = before ++ r :: after
          ∧ (∀ other ∈ before, ¬ Config.Reports (Config.routesProblems [] before) other)
          ∧ ((r.upstreamProblem ∈ r.problemsBehind before
                ∧ failure = .invalidUpstream r.name r.upstreamUri)
              ∨ (r.upstreamProblem ∉ r.problemsBehind before
                ∧ r.headersProblem ∈ r.problemsBehind before
                ∧ failure = .policy r.name .ambiguous)) := by
  refine ⟨fun h => ⟨?_, ?_, fun failure hfailure => ?_⟩, ?_, fun failure =>
    RouteTable.error_iff_first_reported⟩
  · obtain ⟨⟨policy, hpolicy⟩, hroutes, hnames⟩ := Config.parts_of_valid h
    obtain ⟨table, htable⟩ : ∃ table, RouteTable.ofSettings policy s.routes = .ok table :=
      RouteTable.exists_ofSettings_iff.mpr hroutes
    exact ⟨policy, table, hpolicy, htable, RouteTable.routes_of_ofSettings htable,
      (RouteTable.names_of_ofSettings htable).nodup_iff.mpr hnames⟩
  · rcases start_cases h disk with ⟨hclosed, failure, hstart, -⟩ | ⟨-, hlarge, hstart⟩
        | ⟨hopen, hroom, hstart⟩
    · exact iff_of_false (by simp [hstart]) fun h => hclosed h.1
    · exact iff_of_false (by simp [hstart]) fun h => hlarge h.2
    · exact iff_of_true hstart ⟨hopen, hroom⟩
  · rcases start_cases h disk with ⟨hclosed, other, hstart, hfiles⟩ | ⟨-, hlarge, hstart⟩
        | ⟨-, -, service, hstart⟩
    · rw [hstart] at hfailure
      cases hfailure
      exact Or.inl ⟨hfiles, hclosed⟩
    · rw [hstart] at hfailure
      cases hfailure
      exact Or.inr ⟨rfl, hlarge⟩
    · rw [hstart] at hfailure
      cases hfailure
  · simp only [Config.reports_problems_iff]
    exact RouteTable.exists_error_iff

/-- Settings with two routes, a queue and no files. -/
def twoRoutes : Config.Settings where
  capture := { enabled := false }
  routes :=
    [⟨"api", none, some "/api", "http://127.0.0.1:9000", 1, true, none⟩,
      ⟨"web", some "example.org", none, "http://web:80", 0, true, none⟩]

/-- They start. -/
theorem start_of_valid_two_routes : twoRoutes.problems = []
    ∧ ∃ service, start (Disk.ofDirectories [] []) twoRoutes = .ok service := by
  have hvalid : twoRoutes.problems = [] := by decide +kernel
  refine ⟨hvalid, ((start_of_valid (Disk.ofDirectories [] []) twoRoutes ⟨∅, ∅⟩).1 hvalid).2.1.mpr
    ⟨⟨_, rfl, _, rfl⟩, fun _ => ?_⟩⟩
  decide

/-- Settings that ask for a queue with more room than any can have. -/
def hugeQueue : Config.Settings where
  capture := { enabled := false }
  accessLog := { queueCapacity := 2305843009213693952 }

/-- They have no problems and do not start, though there is no file to open. -/
theorem hugeQueue_does_not_start : hugeQueue.problems = []
    ∧ CanOpenFiles (Disk.ofDirectories [] []) hugeQueue
    ∧ start (Disk.ofDirectories [] []) hugeQueue = .error .queue :=
  ⟨by decide +kernel, ⟨_, rfl, _, rfl⟩, rfl⟩

end Service

end Wiretap
