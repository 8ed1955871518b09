/-
  Wiretap.Proofs.Lookup
  ─────────────────────
  **THE ROUTE OF A REQUEST.**

  The routes of a table are sorted by priority and tried one after the other.  The sort keeps
  the order of equals, so what is found is what one would pick from the settings themselves:
  of the routes whose conditions hold, those of the highest priority, and of these the first.
  Routes whose conditions do not hold, or that have a lower priority, make no difference:

    • `find?_mergeSort_eq_some_iff` — the first match behind a sort, in terms of the list,
    • `FirstBest.filter_iff`        — which items matter for it,
    • `Route.matchesHead_iff`       — when the conditions of a route hold,
    • `RouteTable.find?_picks_best` — the route that is found.
-/
import Wiretap.Proofs.HostNames
import Wiretap.Proofs.Startup

namespace Wiretap

/-! ## §1. The first of the best. -/

section FirstBest

variable {α β : Type} {p : α → Prop} {q : β → Prop} {rank : α → Nat} {rank' : β → Nat}
  {x y : α} {l : List α}

/-- In a list, an item is the first of the highest rank among those that pass a test: the
others that pass it and come before have a lower rank, and those behind no higher one. -/
inductive FirstBest (p : α → Prop) (rank : α → Nat) (x : α) : List α → Prop
  | here {rest : List α} (hx : p x) (hrest : ∀ o ∈ rest, p o → rank o ≤ rank x) :
      FirstBest p rank x (x :: rest)
  | behind {a : α} {rest : List α} (ha : p a → rank a < rank x) (h : FirstBest p rank x rest) :
      FirstBest p rank x (a :: rest)

theorem FirstBest.mem (h : FirstBest p rank x l) : x ∈ l := by
  induction h with
  | here hx hrest => exact List.mem_cons_self
  | behind ha h ih => exact List.mem_cons_of_mem _ ih

theorem FirstBest.holds (h : FirstBest p rank x l) : p x := by
  induction h with
  | here hx hrest => exact hx
  | behind ha h ih => exact ih

/-- The list around the first of the best. -/
theorem FirstBest.split (h : FirstBest p rank x l) : ∃ before after, l = before ++ x :: after
    ∧ (∀ o ∈ before, p o → rank o < rank x) ∧ ∀ o ∈ after, p o → rank o ≤ rank x := by
  induction h with
  | @here rest hx hrest => exact ⟨[], rest, rfl, by simp, hrest⟩
  | @behind a rest ha h ih =>
      obtain ⟨before, after, rfl, hbefore, hafter⟩ := ih
      exact ⟨a :: before, after, rfl, List.forall_mem_cons.mpr ⟨ha, hbefore⟩, hafter⟩

/-- There is one at most. -/
theorem FirstBest.unique (hx : FirstBest p rank x l) (hy : FirstBest p rank y l) : x = y := by
  induction hx with
  | here hpx hrest =>
      cases hy with
      | here => rfl
      | behind hlt hy => exact absurd (hlt hpx) (Nat.not_lt.mpr (hrest y hy.mem hy.holds))
  | behind hlt hx ih =>
      cases hy with
      | here hpy hrest => exact absurd (hlt hpy) (Nat.not_lt.mpr (hrest x hx.mem hx.holds))
      | behind _ hy => exact ih hy

/-- Only the items of at least its rank matter, and it is the first of them. -/
theorem FirstBest.filter_iff [DecidablePred p] : FirstBest p rank x l ↔
    ∃ rest, l.filter (fun o => p o ∧ rank x ≤ rank o) = x :: rest
      ∧ ∀ o ∈ rest, rank o ≤ rank x := by
  induction l with
  | nil => exact iff_of_false (fun h => by cases h) (by simp)
  | cons a l ih =>
      by_cases ha : p a ∧ rank x ≤ rank a
      · -- an item of at least this rank is in front of the others
        rw [List.filter_cons_of_pos (by simpa using ha)]
        constructor
        · intro h
          cases h with
          | here hx hrest =>
              refine ⟨_, rfl, fun o ho => ?_⟩
              simp only [List.mem_filter, decide_eq_true_eq] at ho
              exact hrest o ho.1 ho.2.1
          | behind hlt h => exact absurd (hlt ha.1) (Nat.not_lt.mpr ha.2)
        · rintro ⟨rest, hfilter, hrest⟩
          obtain ⟨rfl, rfl⟩ := List.cons.inj hfilter
          refine .here ha.1 fun o ho hpo => ?_
          by_contra hlt
          refine hlt (hrest o ?_)
          simp only [List.mem_filter, decide_eq_true_eq]
          exact ⟨ho, hpo, by omega⟩
      · rw [List.filter_cons_of_neg (by simpa using ha), ← ih]
        constructor
        · intro h
          cases h with
          | here hx hrest => exact absurd ⟨hx, Nat.le_refl _⟩ ha
          | behind hlt h => exact h
        · intro h
          refine .behind (fun hpa => ?_) h
          by_contra hle
          exact ha ⟨hpa, by omega⟩

/-- Two lists whose items correspond have the first of their best in the same place. -/
theorem FirstBest.transfer {R : α → β → Prop} {l' : List β}
    (hR : ∀ a b, R a b → (p a ↔ q b) ∧ rank a = rank' b) (hl : List.Forall₂ R l l')
    (h : FirstBest p rank x l) : ∃ y, R x y ∧ FirstBest q rank' y l' := by
  induction h generalizing l' with
  | here hx hrest =>
      obtain ⟨y, rest', hxy, hrests, rfl⟩ := List.forall₂_cons_left_iff.mp hl
      obtain ⟨hpass, hrank⟩ := hR _ _ hxy
      refine ⟨y, hxy, .here (hpass.mp hx) fun b hb hqb => ?_⟩
      -- what stands behind the one comes from something behind the other
      obtain ⟨a, ha, hab⟩ := exists_of_mem_forall₂ hrests hb
      obtain ⟨hpass', hrank'⟩ := hR a b hab
      rw [← hrank', ← hrank]
      exact hrest a ha (hpass'.mpr hqb)
  | behind hlt h ih =>
      obtain ⟨b, rest', hab, hrests, rfl⟩ := List.forall₂_cons_left_iff.mp hl
      obtain ⟨y, hxy, hy⟩ := ih hrests
      obtain ⟨hpass, hrank⟩ := hR _ _ hab
      refine ⟨y, hxy, .behind (fun hqb => ?_) hy⟩
      rw [← hrank, ← (hR _ _ hxy).2]
      exact hlt (hpass.mpr hqb)

variable {test : α → Bool}

/-- The first match behind a sort by rank is the first of the best matches. -/
theorem firstBest_of_find?_mergeSort
    (h : (l.mergeSort fun a b => rank b ≤ rank a).find? test = some x) :
    FirstBest (test · = true) rank x l := by
  have trans : ∀ a b c : α, decide (rank b ≤ rank a) = true → decide (rank c ≤ rank b) = true →
      decide (rank c ≤ rank a) = true := by
    intro a b c hab hbc
    simp only [decide_eq_true_eq] at hab hbc ⊢
    omega
  have total : ∀ a b : α, (decide (rank b ≤ rank a) || decide (rank a ≤ rank b)) = true := by
    intro a b
    simp only [Bool.or_eq_true, decide_eq_true_eq]
    omega
  induction l with
  | nil => simp at h
  | cons a l ih =>
      -- the sort puts the first item behind those of a higher rank and before all others
      obtain ⟨above, below, hsort, hrest, habove⟩ := List.mergeSort_cons trans total a l
      have hsorted := List.pairwise_mergeSort trans total (a :: l)
      rw [hsort] at h hsorted
      rw [hrest] at ih
      simp only [Bool.not_eq_true', decide_eq_false_iff_not] at habove
      rw [List.find?_append] at h
      cases hfirst : above.find? test with
      | some y =>
          obtain rfl : y = x := by simpa [hfirst] using h
          have hy := List.mem_of_find?_eq_some hfirst
          refine .behind (fun _ => Nat.lt_of_not_le (habove y hy)) (ih ?_)
          rw [List.find?_append, hfirst]
          rfl
      | none =>
          rw [hfirst, Option.none_or] at h
          by_cases ha : test a = true
          · obtain rfl : a = x := by simpa [ha] using h
            refine .here ha fun o ho hpass => ?_
            have hmem : o ∈ above ++ below := hrest ▸ List.mem_mergeSort.mpr ho
            rcases List.mem_append.mp hmem with hin | hin
            · exact absurd hpass (List.find?_eq_none.mp hfirst o hin)
            · have hle := (List.pairwise_cons.mp (List.pairwise_append.mp hsorted).2.1).1 o hin
              exact of_decide_eq_true hle
          · refine .behind (fun hpass => absurd hpass ha) (ih ?_)
            rw [List.find?_append, hfirst, Option.none_or]
            rwa [List.find?_cons_of_neg ha] at h

theorem find?_mergeSort_eq_some_iff :
    (l.mergeSort fun a b => rank b ≤ rank a).find? test = some x
      ↔ FirstBest (test · = true) rank x l := by
  refine ⟨firstBest_of_find?_mergeSort, fun h => ?_⟩
  -- something is found, and there is nothing else that it could be
  have hsome : ((l.mergeSort fun a b => rank b ≤ rank a).find? test).isSome = true :=
    List.find?_isSome.mpr ⟨x, List.mem_mergeSort.mpr h.mem, h.holds⟩
  obtain ⟨y, hy⟩ := Option.isSome_iff_exists.mp hsome
  rw [hy, h.unique (firstBest_of_find?_mergeSort hy)]

/-- Where something passes the test there is a first of the best. -/
theorem exists_firstBest [DecidablePred p] (rank : α → Nat) (h : ∃ o ∈ l, p o) :
    ∃ x, FirstBest p rank x l := by
  obtain ⟨o, ho, hpo⟩ := h
  have hsome : ((l.mergeSort fun a b => rank b ≤ rank a).find? (decide <| p ·)).isSome = true :=
    List.find?_isSome.mpr ⟨o, List.mem_mergeSort.mpr ho, decide_eq_true hpo⟩
  obtain ⟨x, hx⟩ := Option.isSome_iff_exists.mp hsome
  have hbest := firstBest_of_find?_mergeSort hx
  simp only [decide_eq_true_eq] at hbest
  exact ⟨x, hbest⟩

end FirstBest

/-! ## §2. The conditions of a route. -/

/-- Whether the conditions that settings put on a route hold for a request: what its host has
in front of the first colon is the host they name, whatever the case, and its path starts with
the prefix. -/
structure Config.RouteSettings.Applies (s : Config.RouteSettings) (head : RequestHead) : Prop where
  host : ∀ host ∈ s.host, ∃ named ∈ head.host, ∃ own, BeforeColon own named
    ∧ Text.sameIgnoringAsciiCase own (Text.lowercase host) = true
  path : ∀ start ∈ s.pathPrefix, start.toList <+: head.path.toList

namespace Route

variable {general : Policy} {s : Config.RouteSettings} {route : Route} {head : RequestHead}

/-- The test that a route makes, in terms of its settings. -/
theorem applies_iff : (holds (s.host.map Text.lowercase) matchesHost head
    && holds s.pathPrefix matchesPath head) = true ↔ s.Applies head := by
  have hhost : holds (s.host.map Text.lowercase) matchesHost head = true
      ↔ ∀ host ∈ s.host, ∃ named ∈ head.host, ∃ own, BeforeColon own named
        ∧ Text.sameIgnoringAsciiCase own (Text.lowercase host) = true := by
    simp only [← withoutPort_eq_iff, exists_eq_left']
    cases s.host <;> simp [holds, matchesHost_iff]
  have hpath : holds s.pathPrefix matchesPath head = true
      ↔ ∀ start ∈ s.pathPrefix, start.toList <+: head.path.toList := by
    cases s.pathPrefix <;> simp [holds, matchesPath, List.isPrefixOf_iff_prefix]
  rw [Bool.and_eq_true, hhost, hpath]
  exact ⟨fun h => ⟨h.1, h.2⟩, fun h => ⟨h.host, h.path⟩⟩

/-- A route is for a request just when the conditions of its settings hold. -/
theorem matchesHead_iff (h : ofSettings general s = .ok route) :
    route.matchesHead head = true ↔ s.Applies head := by
  obtain ⟨base, policy, -, -, rfl⟩ := ofSettings_ok h
  exact applies_iff

end Route

instance (s : Config.RouteSettings) (head : RequestHead) : Decidable (s.Applies head) :=
  decidable_of_iff _ Route.applies_iff

/-! ## §3. Lookups. -/

/-- Whether the settings of a route can matter for a request, next to the route that is the
answer: their conditions hold, and they have no lower priority than the answer. -/
def Config.RouteSettings.Counts (head : RequestHead) (answer : Option Route)
    (s : Config.RouteSettings) : Prop :=
  s.Applies head ∧ ∀ route ∈ answer, route.priority ≤ s.priority

instance (head : RequestHead) (answer : Option Route) :
    DecidablePred (Config.RouteSettings.Counts head answer) := fun s => by
  unfold Config.RouteSettings.Counts
  infer_instance

namespace RouteTable

variable {general : Policy} {settings settings' : List Config.RouteSettings}
  {table table' : RouteTable} {head : RequestHead} {route : Route}

/-- A route is found just when its settings are the first of the best. -/
theorem find?_eq_some_iff (h : ofSettings general settings = .ok table) :
    table.find? head = some route ↔ ∃ s, Route.ofSettings general s = .ok route
      ∧ FirstBest (fun s => s.Applies head) (·.priority) s settings := by
  obtain ⟨routes, hmade, hsorted⟩ := sorted_of_ofSettings h
  have hfind : table.find? head = some route
      ↔ FirstBest (fun r => r.matchesHead head = true) (·.priority) route routes := by
    unfold find?
    rw [hsorted]
    exact find?_mergeSort_eq_some_iff
  have hsame : ∀ (s : Config.RouteSettings) (r : Route), Route.ofSettings general s = .ok r →
      (s.Applies head ↔ r.matchesHead head = true) ∧ s.priority = r.priority := by
    intro s r hr
    refine ⟨(Route.matchesHead_iff hr).symm, ?_⟩
    obtain ⟨base, policy, -, -, rfl⟩ := Route.ofSettings_ok hr
    rfl
  rw [hfind]
  constructor
  · intro hbest
    have hback : List.Forall₂ (flip fun s r => Route.ofSettings general s = .ok r) routes
        settings := List.Forall₂.flip hmade
    exact hbest.transfer (fun r s hr => ⟨(hsame s r hr).1.symm, (hsame s r hr).2.symm⟩) hback
  · rintro ⟨s, hs, hbest⟩
    obtain ⟨r, hr, hbest'⟩ := hbest.transfer hsame hmade
    rw [hs] at hr
    cases hr
    exact hbest'

/-- Something is found just when the conditions of some route hold. -/
theorem isSome_find?_iff (h : ofSettings general settings = .ok table) :
    (table.find? head).isSome = true ↔ ∃ s ∈ settings, s.Applies head := by
  rw [Option.isSome_iff_exists]
  constructor
  · rintro ⟨route, hfound⟩
    obtain ⟨s, -, hbest⟩ := (find?_eq_some_iff h).mp hfound
    exact ⟨s, hbest.mem, hbest.holds⟩
  · intro hany
    obtain ⟨s, hbest⟩ := exists_firstBest (fun s : Config.RouteSettings => s.priority) hany
    -- the settings were accepted, so these made a route
    have hvalid := exists_ofSettings_iff.mp ⟨table, h⟩ s hbest.mem
    obtain ⟨route, hroute⟩ := Route.exists_ofSettings_iff.mpr hvalid
    exact ⟨route, (find?_eq_some_iff h).mpr ⟨s, hroute, hbest⟩⟩

/-- Settings that agree on the routes that count have the same answer. -/
theorem find?_congr (h : ofSettings general settings = .ok table)
    (h' : ofSettings general settings' = .ok table')
    (hcount : settings'.filter (Config.RouteSettings.Counts head (table.find? head))
      = settings.filter (Config.RouteSettings.Counts head (table.find? head))) :
    table'.find? head = table.find? head := by
  cases hfound : table.find? head with
  | none =>
      -- no route counts in the one list, and so none does in the other
      have hnone : ¬ ∃ s ∈ settings, s.Applies head := by
        rw [← isSome_find?_iff h, hfound]
        exact Bool.false_ne_true
      have hnil : settings.filter (Config.RouteSettings.Counts head none) = [] := by
        rw [List.filter_eq_nil_iff]
        intro s hs hcounts
        exact hnone ⟨s, hs, (of_decide_eq_true hcounts).1⟩
      rw [hfound, hnil, List.filter_eq_nil_iff] at hcount
      rw [← Option.not_isSome_iff_eq_none, isSome_find?_iff h']
      rintro ⟨s, hs, happlies⟩
      exact hcount s hs (decide_eq_true ⟨happlies, fun _ hr => by cases hr⟩)
  | some route =>
      rw [hfound] at hcount
      obtain ⟨s, hs, hbest⟩ := (find?_eq_some_iff h).mp hfound
      refine (find?_eq_some_iff h').mpr ⟨s, hs, ?_⟩
      obtain ⟨rest, hfilter, hrest⟩ := FirstBest.filter_iff.mp hbest
      refine FirstBest.filter_iff.mpr ⟨rest, Eq.trans ?_ hfilter, hrest⟩
      -- the answer has the priority of its settings
      obtain ⟨base, policy, -, -, rfl⟩ := Route.ofSettings_ok hs
      simpa [Config.RouteSettings.Counts] using hcount

/-- **A lookup picks the best match.**  A table has a route for a request just when the
conditions of some route hold.  The answer is one of these, those before it in the settings
have a lower priority, and those behind it no higher one.  Settings that agree on the routes
that match and have no lower priority than the answer have the same answer. -/
theorem find?_picks_best (h : ofSettings general settings = .ok table) (head : RequestHead) :
    ((table.find? head).isSome = true ↔ ∃ s ∈ settings, s.Applies head)
      ∧ (∀ route, table.find? head = some route → ∃ before s after,
        settings = before ++ s :: after ∧ Route.ofSettings general s = .ok route
          ∧ s.Applies head
          ∧ (∀ other ∈ before, other.Applies head → other.priority < s.priority)
          ∧ ∀ other ∈ after, other.Applies head → other.priority ≤ s.priority)
      ∧ ∀ settings' table', ofSettings general settings' = .ok table' →
        settings'.filter (Config.RouteSettings.Counts head (table.find? head))
          = settings.filter (Config.RouteSettings.Counts head (table.find? head)) →
        table'.find? head = table.find? head := by
  refine ⟨isSome_find?_iff h, fun route hfound => ?_, fun _ _ h' => find?_congr h h'⟩
  obtain ⟨s, hs, hbest⟩ := (find?_eq_some_iff h).mp hfound
  obtain ⟨before, after, hsplit, hbefore, hafter⟩ := hbest.split
  exact ⟨before, s, after, hsplit, hs, hbest.holds, hbefore, hafter⟩

/-- Settings of a route for a host, and of one for another host. -/
def forHost : Config.RouteSettings :=
  ⟨"first", some "Example.org", some "/a", "http://127.0.0.1:2", 2, true, none⟩

def forOther : Config.RouteSettings :=
  ⟨"other", some "example.com", none, "http://127.0.0.1:4", 9, true, none⟩

/-- The route for the host, next to one of its priority, one of a lower and one of a higher. -/
def tiedRoutes : List Config.RouteSettings :=
  [⟨"low", none, none, "http://127.0.0.1:1", 0, true, none⟩, forHost,
    ⟨"second", none, some "/a/x", "http://127.0.0.1:3", 2, true, none⟩, forOther]

/-- The same of them: a request for the host in another case, at a port, gets the first of the
two, also when a route of a lower priority comes in front and the one for the other host is left
out. -/
theorem find?_picks_best_of_tied :
    let head : RequestHead := ⟨some "EXAMPLE.org:8080", "/a/x"⟩
    let others := ⟨"last", none, none, "http://127.0.0.1:5", 1, true, none⟩ :: tiedRoutes.take 3
    ∃ table table' : RouteTable, ofSettings ⟨∅, ∅⟩ tiedRoutes = .ok table
      ∧ ofSettings ⟨∅, ∅⟩ others = .ok table'
      ∧ (table.find? head).map (·.name) = some "first"
      ∧ table'.find? head = table.find? head := by
  intro head others
  have hplain : ∀ s ∈ tiedRoutes ++ others, ∃ route, Route.ofSettings ⟨∅, ∅⟩ s = .ok route := by
    have hupstream : ∀ s ∈ tiedRoutes ++ others,
        Config.isUpstream s.upstreamUri = true ∧ s.headers = none := by decide +kernel
    intro s hs
    obtain ⟨hvalid, hheaders⟩ := hupstream s hs
    exact Route.exists_ofSettings_iff.mpr ⟨hvalid, fun ⟨rules, hrules, _⟩ => by simp_all⟩
  have hmade : ∀ settings, settings ⊆ tiedRoutes ++ others →
      ∃ table, ofSettings ⟨∅, ∅⟩ settings = .ok table := fun settings hsub =>
    exists_ofSettings_iff.mpr fun s hs => Route.exists_ofSettings_iff.mp (hplain s (hsub hs))
  obtain ⟨table, h⟩ := hmade tiedRoutes (List.subset_append_left _ _)
  obtain ⟨table', h'⟩ := hmade others (List.subset_append_right _ _)
  have hascii (s : String) (h : s.toList.all (fun c => c.toNat < 128) = true) :
      ∀ c ∈ s.toList, c.toNat < 128 := fun c hc => of_decide_eq_true (List.all_eq_true.mp h c hc)
  -- the one host is asked for, and the other is not
  have hhost : forHost.Applies head := by
    refine ⟨fun host hhost => ⟨_, rfl, "EXAMPLE.org", ⟨by decide, Or.inr ⟨"8080", rfl⟩⟩, ?_⟩,
      by decide +kernel⟩
    obtain rfl : "Example.org" = host := Option.some.inj hhost
    rw [Text.sameIgnoringAsciiCase_lowercase (hascii "Example.org" (by decide)),
      Text.sameIgnoringAsciiCase_iff]
    decide
  have hother : ¬ forOther.Applies head := by
    rintro ⟨hnames, -⟩
    obtain ⟨named, hnamed, own, hown, hsame⟩ := hnames "example.com" rfl
    obtain rfl : "EXAMPLE.org:8080" = named := Option.some.inj hnamed
    obtain rfl := Route.withoutPort_eq_iff.mpr hown
    rw [Text.sameIgnoringAsciiCase_lowercase (hascii "example.com" (by decide)),
      Text.sameIgnoringAsciiCase_iff] at hsame
    exact absurd hsame (by decide +kernel)
  have hbest : FirstBest (fun s : Config.RouteSettings => s.Applies head) (·.priority) forHost
      tiedRoutes := by
    refine .behind (by decide +kernel) (.here hhost ?_)
    rw [List.forall_mem_cons, List.forall_mem_singleton]
    exact ⟨by decide +kernel, fun happlies => absurd happlies hother⟩
  obtain ⟨route, hroute⟩ := hplain _ (List.mem_append_left _ hbest.mem)
  have hfound := (find?_eq_some_iff h).mpr ⟨_, hroute, hbest⟩
  obtain ⟨base, policy, -, -, rfl⟩ := Route.ofSettings_ok hroute
  refine ⟨table, table', h, h', by rw [hfound]; rfl, ?_⟩
  refine (find?_picks_best h head).2.2 others table' h' ?_
  rw [hfound]
  -- the route for the other host does not count, and the two of a lower priority neither
  simp [others, tiedRoutes, Config.RouteSettings.Counts, List.filter_cons, hother, forHost]

end RouteTable

end Wiretap
