/-
  Wiretap.Proofs.Layering
  ───────────────────────
  **ONE POLICY OVER ANOTHER.**

  Layering is told by single names: what the sets of the layered policy hold under a name is
  what the outer policy holds there, and else what the base does (`merge_includes_getElem?`,
  `merge_excludes_getElem?`).  The rule for a header looks at all of the include set, though,
  so a header that the outer policy excludes is at the mercy of an allow-list below it:

    • `resolve_merge_of_included`, `resolve_merge_of_excluded` — the rule for a header that
      the outer policy lists,
    • `resolve_merge_eq_listed_iff` — when that is the rule it is listed with,
    • `resolve_merge_of_unlisted` — the rule for a header that it does not list,
    • `protection_le_merge_iff` — when that protects as well as the rule of the base.
-/
import Wiretap.Policy.Basic

namespace Wiretap.Policy

variable {base outer : Policy} {name : String} {rule : Rule}

/-! ## §1. The sets of a layered policy. -/

theorem merge_includes_getElem? (base outer : Policy) (key : String) :
    (merge base outer).includes[key]?
      = if key ∈ outer.excludes then none else outer.includes[key]?.or base.includes[key]? := by
  show ((base.includes ∪ outer.includes) \ outer.excludes)[key]? = _
  rw [Std.ExtTreeMap.getElem?_diff, Std.ExtTreeMap.getElem?_union]

theorem merge_excludes_getElem? (base outer : Policy) (key : String) :
    (merge base outer).excludes[key]?
      = outer.excludes[key]?.or (if key ∈ outer.includes then none else base.excludes[key]?) := by
  show ((base.excludes \ outer.includes) ∪ outer.excludes)[key]? = _
  rw [Std.ExtTreeMap.getElem?_union, Std.ExtTreeMap.getElem?_diff]

/-- The allow-list of a layered policy is empty when the outer policy excludes all that either
of them includes. -/
theorem merge_includes_isEmpty (base outer : Policy) :
    (merge base outer).includes.isEmpty = true
      ↔ ∀ key, key ∈ base.includes ∨ key ∈ outer.includes → key ∈ outer.excludes := by
  show ((base.includes ∪ outer.includes) \ outer.excludes).isEmpty = true ↔ _
  rw [Std.ExtTreeMap.isEmpty_diff_iff]
  simp only [Std.ExtTreeMap.mem_union_iff]

/-- A policy that was accepted has one set without entries. -/
theorem isEmpty_of_tryOfEntries {includes excludes : List (String × Rule)} {p : Policy}
    (h : tryOfEntries includes excludes = .ok p) :
    p.includes = ∅ ∨ p.excludes = ∅ := by
  unfold tryOfEntries at h
  dsimp only at h
  split at h
  next => cases h
  next hone =>
    cases h
    simp only [Bool.and_eq_true, Bool.not_eq_true', not_and, Bool.not_eq_false] at hone
    by_cases hin : (ofEntries includes excludes).includes.isEmpty = true
    · exact Or.inl (Std.ExtTreeMap.isEmpty_iff.mp hin)
    · exact Or.inr (Std.ExtTreeMap.isEmpty_iff.mp (hone (by simpa using hin)))

/-! ## §2. The rule for a header. -/

/-- Whether a header is treated alike under every policy. -/
def IsFixed (name : String) : Prop :=
  Text.asciiLower name = "authorization" ∨ Text.asciiLower name ∈ alwaysKept

/-- The rule that a policy lists for a header, in either set and whatever the case of its
letters. -/
def listed? (p : Policy) (name : String) : Option Rule :=
  p.includes[Text.asciiLower name]?.or p.excludes[Text.asciiLower name]?

/-- A header of those that are treated alike has one rule. -/
theorem resolve_of_isFixed (p q : Policy) (h : IsFixed name) : p.resolve name = q.resolve name := by
  unfold resolve resolveLower
  rcases h with hauth | hkept
  · rw [if_pos hauth, if_pos hauth]
  · by_cases hauth : Text.asciiLower name = "authorization"
    · rw [if_pos hauth, if_pos hauth]
    · have hcontains : alwaysKept.contains (Text.asciiLower name) = true := by simpa using hkept
      rw [if_neg hauth, if_neg hauth, if_pos hcontains, if_pos hcontains]

/-- For a header without a treatment of its own the include set counts, and while that is
empty the exclude set. -/
theorem resolve_of_not_isFixed (p : Policy) (h : ¬ IsFixed name) :
    p.resolve name = p.includes[Text.asciiLower name]?.getD
      (if p.includes.isEmpty then p.excludes[Text.asciiLower name]?.getD .keep else .delete) := by
  obtain ⟨hauth, hkept⟩ := not_or.mp h
  unfold resolve resolveLower
  rw [if_neg hauth, if_neg (by simpa using hkept)]
  cases p.includes[Text.asciiLower name]? <;> rfl

/-- A header that the outer policy includes, and does not exclude, has its rule. -/
theorem resolve_merge_of_included (base : Policy) (hfree : ¬ IsFixed name)
    (hin : outer.includes[Text.asciiLower name]? = some rule)
    (hout : Text.asciiLower name ∉ outer.excludes) : (merge base outer).resolve name = rule := by
  rw [resolve_of_not_isFixed _ hfree, merge_includes_getElem?, if_neg hout, hin]
  rfl

/-- A header that the outer policy excludes has its rule while nothing is included, and else
it is none of those that are. -/
theorem resolve_merge_of_excluded (base : Policy) (hfree : ¬ IsFixed name)
    (hout : outer.excludes[Text.asciiLower name]? = some rule) :
    (merge base outer).resolve name
      = if (merge base outer).includes.isEmpty then rule else .delete := by
  have hmem : Text.asciiLower name ∈ outer.excludes := by
    rw [Std.ExtTreeMap.mem_iff_isSome_getElem?, hout]
    rfl
  rw [resolve_of_not_isFixed _ hfree, merge_includes_getElem?, if_pos hmem,
    merge_excludes_getElem?, hout]
  rfl

/-! ## §3. Headers that the outer policy lists. -/

/-- **When the listed rule wins.**  A header that an accepted policy lists has the listed rule
in every policy layered below it, unless an allow-list there deletes it: the header is listed
as an exclude, with a rule that would not delete it, and some include of the base is not
excluded with it.  Then it is deleted. -/
theorem resolve_merge_eq_listed_iff (base : Policy) {includes excludes : List (String × Rule)}
    (houter : tryOfEntries includes excludes = .ok outer) (hfree : ¬ IsFixed name)
    (hlisted : outer.listed? name = some rule) :
    ((merge base outer).resolve name = rule
        ↔ rule = .delete ∨ outer.excludes = ∅ ∨ ∀ key ∈ base.includes, key ∈ outer.excludes)
      ∧ ((merge base outer).resolve name ≠ rule → (merge base outer).resolve name = .delete) := by
  unfold listed? at hlisted
  rcases isEmpty_of_tryOfEntries houter with hnone | hnone
  case inr =>
    -- without excludes the header is an include, also of the layered policy
    rw [hnone] at hlisted
    have hin : outer.includes[Text.asciiLower name]? = some rule := by simpa using hlisted
    have hwins := resolve_merge_of_included base hfree hin (by simp [hnone])
    exact ⟨iff_of_true hwins (Or.inr (Or.inl hnone)), fun hne => absurd hwins hne⟩
  case inl =>
    rw [hnone] at hlisted
    have hout : outer.excludes[Text.asciiLower name]? = some rule := by simpa using hlisted
    have hsome : outer.excludes ≠ ∅ := by
      intro hempty
      simp [hempty] at hout
    have hundone : (merge base outer).includes.isEmpty = true
        ↔ ∀ key ∈ base.includes, key ∈ outer.excludes := by
      rw [merge_includes_isEmpty, hnone]
      simp
    -- what decides is whether an include of the base is left
    rw [resolve_merge_of_excluded base hfree hout, ← hundone]
    by_cases hleft : (merge base outer).includes.isEmpty = true
    · rw [if_pos hleft]
      exact ⟨iff_of_true rfl (Or.inr (Or.inr hleft)), fun hne => absurd rfl hne⟩
    · rw [if_neg hleft]
      refine ⟨⟨fun hdelete => Or.inl hdelete.symm, ?_⟩, fun _ => rfl⟩
      rintro (hdelete | hempty | hgone)
      · exact hdelete.symm
      · exact absurd hempty hsome
      · exact absurd hgone hleft

theorem not_isFixed_age : ¬ IsFixed "Age" := by
  have hlower : Text.asciiLower "Age" = "age" := by decide +kernel
  rw [IsFixed, hlower]
  decide

/-- The same of a policy that excludes all that its base includes. -/
theorem resolve_merge_eq_listed_iff_of_undone :
    tryOfEntries [] [("via", .delete), ("Age", .redact)]
        = .ok (ofEntries [] [("via", .delete), ("Age", .redact)])
      ∧ (ofEntries [] [("via", .delete), ("Age", .redact)]).listed? "Age" = some .redact
      ∧ (merge (ofEntries [("Via", .keep)] [])
          (ofEntries [] [("via", .delete), ("Age", .redact)])).resolve "Age" = .redact := by
  have houter : tryOfEntries [] [("via", .delete), ("Age", .redact)]
      = .ok (ofEntries [] [("via", .delete), ("Age", .redact)]) := rfl
  have hlisted : (ofEntries [] [("via", .delete), ("Age", .redact)]).listed? "Age"
      = some .redact := by decide +kernel
  -- the base includes one header, and that is excluded
  have hundone : ∀ key ∈ (ofEntries [("Via", .keep)] []).includes,
      key ∈ (ofEntries [] [("via", .delete), ("Age", .redact)]).excludes := by
    intro key hkey
    have hvia : normalName "Via" = "via" := by decide +kernel
    obtain rfl : "via" = key := by
      simpa [ofEntries, RuleSet.ofEntries, hvia, Std.ExtTreeMap.mem_ofList] using hkey
    decide +kernel
  exact ⟨houter, hlisted, (resolve_merge_eq_listed_iff _ houter not_isFixed_age hlisted).1.mpr
    (Or.inr (Or.inr hundone))⟩

/-- An allow-list takes away a header that the policy over it lists to be redacted. -/
theorem merge_allowList_deletes_listed :
    tryOfEntries [("Via", .keep)] [] = .ok (ofEntries [("Via", .keep)] [])
      ∧ tryOfEntries [] [("Age", .redact)] = .ok (ofEntries [] [("Age", .redact)])
      ∧ ¬ IsFixed "Age" ∧ (ofEntries [] [("Age", .redact)]).listed? "Age" = some .redact
      ∧ (merge (ofEntries [("Via", .keep)] []) (ofEntries [] [("Age", .redact)])).resolve "Age"
          = .delete :=
  ⟨rfl, rfl, not_isFixed_age, by decide +kernel, by decide +kernel⟩

/-! ## §4. Headers that the outer policy does not list. -/

/-- A header that the outer policy does not list is looked up in the base; what counts for the
rest is whether the layered policy includes anything. -/
theorem resolve_merge_of_unlisted (base : Policy) (hfree : ¬ IsFixed name)
    (hunlisted : outer.listed? name = none) :
    (merge base outer).resolve name = base.includes[Text.asciiLower name]?.getD
      (if (merge base outer).includes.isEmpty
        then base.excludes[Text.asciiLower name]?.getD .keep else .delete) := by
  obtain ⟨hin, hout⟩ := Option.or_eq_none_iff.mp hunlisted
  have hnotin : Text.asciiLower name ∉ outer.includes := by
    rw [Std.ExtTreeMap.mem_iff_isSome_getElem?, hin]
    nofun
  have hnotout : Text.asciiLower name ∉ outer.excludes := by
    rw [Std.ExtTreeMap.mem_iff_isSome_getElem?, hout]
    nofun
  rw [resolve_of_not_isFixed _ hfree, merge_includes_getElem?, if_neg hnotout, hin,
    merge_excludes_getElem?, hout, if_neg hnotin]
  rfl

/-- Whether a policy excludes all that the one below it includes, which is something. -/
def Undoes (outer base : Policy) : Prop :=
  base.includes ≠ ∅ ∧ ∀ key ∈ base.includes, key ∈ outer.excludes

/-- An allow-list of the base goes on in the layered policy, unless an accepted policy over it
excludes all of it. -/
theorem merge_includes_isEmpty_iff_undoes {includes excludes : List (String × Rule)}
    (houter : tryOfEntries includes excludes = .ok outer) (hbase : base.includes ≠ ∅) :
    (merge base outer).includes.isEmpty = true ↔ outer.Undoes base := by
  rw [merge_includes_isEmpty]
  refine ⟨fun hgone => ⟨hbase, fun key hkey => hgone key (Or.inl hkey)⟩, ?_⟩
  rintro ⟨-, hgone⟩ key (hkey | hkey)
  · exact hgone key hkey
  · -- a policy that includes something excludes nothing, and then nothing is gone
    exfalso
    rcases isEmpty_of_tryOfEntries houter with hnone | hnone
    · simp [hnone] at hkey
    · refine hbase (Std.ExtTreeMap.eq_empty_iff_forall_not_mem.mpr fun key' hkey' => ?_)
      simpa [hnone] using hgone key' hkey'

/-- Where the allow-list is undone, a header that neither policy includes was deleted by it, and
is treated as if there had been none. -/
theorem resolve_merge_of_undoes {includes excludes : List (String × Rule)}
    (houter : tryOfEntries includes excludes = .ok outer) (hfree : ¬ IsFixed name)
    (hunlisted : outer.listed? name = none) (hundone : outer.Undoes base) :
    base.resolve name = .delete ∧ (merge base outer).resolve name
      = base.excludes[Text.asciiLower name]?.getD .keep := by
  -- what the base includes is excluded by the outer policy, which does not list the header
  have hnotin : base.includes[Text.asciiLower name]? = none := by
    refine Std.ExtTreeMap.getElem?_eq_none fun hin => ?_
    have hmem := hundone.2 _ hin
    rw [Std.ExtTreeMap.mem_iff_isSome_getElem?, (Option.or_eq_none_iff.mp hunlisted).2] at hmem
    cases hmem
  constructor
  · rw [resolve_of_not_isFixed base hfree, hnotin,
      if_neg fun hempty => hundone.1 (Std.ExtTreeMap.isEmpty_iff.mp hempty)]
    rfl
  · rw [resolve_merge_of_unlisted base hfree hunlisted, hnotin,
      if_pos ((merge_includes_isEmpty_iff_undoes houter hundone.1).mpr hundone)]
    rfl

/-- Where it is not, a header that the outer policy does not list has the rule of the base, or
is deleted. -/
theorem resolve_merge_of_not_undoes {includes excludes : List (String × Rule)}
    (houter : tryOfEntries includes excludes = .ok outer) (hfree : ¬ IsFixed name)
    (hunlisted : outer.listed? name = none) (hkept : ¬ outer.Undoes base) :
    (merge base outer).resolve name = base.resolve name
      ∨ (merge base outer).resolve name = .delete := by
  rw [resolve_of_not_isFixed base hfree, resolve_merge_of_unlisted base hfree hunlisted]
  cases base.includes[Text.asciiLower name]? with
  | some rule => exact Or.inl rfl
  | none =>
      by_cases hmerged : (merge base outer).includes.isEmpty = true
      · -- then the base includes nothing either
        have hbase : base.includes = ∅ := Classical.byContradiction fun hbase =>
          hkept ((merge_includes_isEmpty_iff_undoes houter hbase).mp hmerged)
        rw [if_pos hmerged, if_pos (Std.ExtTreeMap.isEmpty_iff.mpr hbase)]
        exact Or.inl rfl
      · rw [if_neg hmerged]
        exact Or.inr rfl

/-- **When layering exposes a header.**  A header that an accepted policy does not list is
protected at least as well in every policy layered below it as in the base, unless the outer
policy excludes all that the base includes, and the base does not exclude the header to be
deleted.  Then the allow-list, which deleted it, is gone, and the header is treated as if there
had been none. -/
theorem protection_le_merge_iff (base : Policy) {includes excludes : List (String × Rule)}
    (houter : tryOfEntries includes excludes = .ok outer)
    (hunlisted : outer.listed? name = none) :
    ((base.resolve name).protection ≤ ((merge base outer).resolve name).protection
        ↔ IsFixed name ∨ ¬ outer.Undoes base
          ∨ base.excludes[Text.asciiLower name]? = some .delete)
      ∧ (¬ (base.resolve name).protection ≤ ((merge base outer).resolve name).protection →
        base.resolve name = .delete ∧ (merge base outer).resolve name
          = base.excludes[Text.asciiLower name]?.getD .keep) := by
  by_cases hfixed : IsFixed name
  case pos =>
    rw [resolve_of_isFixed (merge base outer) base hfixed]
    exact ⟨iff_of_true (Nat.le_refl _) (Or.inl hfixed), fun hless => absurd (Nat.le_refl _) hless⟩
  case neg =>
    by_cases hundone : outer.Undoes base
    case pos =>
      obtain ⟨hbase, hmerged⟩ := resolve_merge_of_undoes houter hfixed hunlisted hundone
      refine ⟨?_, fun _ => ⟨hbase, hmerged⟩⟩
      rw [hbase, hmerged, Rule.delete_protection_le]
      simp only [hfixed, hundone, not_true, false_or]
      cases base.excludes[Text.asciiLower name]? <;> simp
    case neg =>
      have hle : (base.resolve name).protection ≤ ((merge base outer).resolve name).protection := by
        rcases resolve_merge_of_not_undoes houter hfixed hunlisted hundone with hsame | hdelete
        · exact Nat.le_of_eq (congrArg _ hsame.symm)
        · rw [hdelete]
          exact Rule.protection_le_delete _
      exact ⟨iff_of_true hle (Or.inr (Or.inl hundone)), fun hless => absurd hle hless⟩

/-- The same of a header that an allow-list deletes, below a policy that leaves something of it. -/
theorem protection_le_merge_iff_of_left :
    tryOfEntries [] [("Via", .delete)] = .ok (ofEntries [] [("Via", .delete)])
      ∧ (ofEntries [] [("Via", .delete)]).listed? "Age" = none
      ∧ (ofEntries [("Via", .keep), ("Date", .keep)] []).resolve "Age" = .delete
      ∧ (merge (ofEntries [("Via", .keep), ("Date", .keep)] [])
          (ofEntries [] [("Via", .delete)])).resolve "Age" = .delete := by
  have houter : tryOfEntries [] [("Via", .delete)] = .ok (ofEntries [] [("Via", .delete)]) := rfl
  have hunlisted : (ofEntries [] [("Via", .delete)]).listed? "Age" = none := by decide +kernel
  have hdelete : (ofEntries [("Via", .keep), ("Date", .keep)] []).resolve "Age" = .delete := by
    decide +kernel
  -- one of the two that the base includes is not excluded
  have hleft : ¬ (ofEntries [] [("Via", .delete)]).Undoes
      (ofEntries [("Via", .keep), ("Date", .keep)] []) := by
    rintro ⟨-, hgone⟩
    have hdate : "date" ∉ (ofEntries [] [("Via", .delete)]).excludes := by decide +kernel
    exact hdate (hgone "date" (by decide +kernel))
  have hle := (protection_le_merge_iff (ofEntries [("Via", .keep), ("Date", .keep)] [])
    houter hunlisted).1.mpr (Or.inr (Or.inl hleft))
  rw [hdelete] at hle
  exact ⟨houter, hunlisted, hdelete, Rule.delete_protection_le.mp hle⟩

/-- A policy that excludes the one header that an allow-list includes exposes all the others. -/
theorem merge_exposes_unlisted :
    tryOfEntries [("Via", .keep)] [] = .ok (ofEntries [("Via", .keep)] [])
      ∧ tryOfEntries [] [("Via", .delete)] = .ok (ofEntries [] [("Via", .delete)])
      ∧ (ofEntries [] [("Via", .delete)]).listed? "Cookie" = none
      ∧ (ofEntries [("Via", .keep)] []).resolve "Cookie" = .delete
      ∧ (merge (ofEntries [("Via", .keep)] []) (ofEntries [] [("Via", .delete)])).resolve "Cookie"
          = .keep
      ∧ Rule.keep.protection < Rule.delete.protection :=
  ⟨rfl, rfl, by decide +kernel, by decide +kernel, by decide +kernel, by decide⟩

end Wiretap.Policy
