/-
  Wiretap.Proofs.Stacking
  ───────────────────────
  **POLICIES STACK.**

  What layering does, it does name by name: the two entries that a name has in the layered
  policy depend on its entries in the two policies and on nothing else (`entries_merge`).  So a
  law of layering is a law of single names (`Entries.onto`), and there are few cases of that:

    • `Entries.onto_assoc`, `Entries.onto_onto_self` — the laws of a single name,
    • `mergeInTurn_eq_merge`  — layering rule by rule, in any order of the rules,
    • `merge_laws`            — policies that list no name twice form a monoid under layering,
      in which a layer put on twice counts once.
-/
import Mathlib.Data.List.Induction
import Wiretap.Proofs.Layering

namespace Wiretap.Policy

variable {p q base outer : Policy} {name : String}

/-! ## §1. One name. -/

/-- What a policy lists for one name: the rules in its include set and in its exclude set. -/
structure Entries where
  included : Option Rule
  excluded : Option Rule

namespace Entries

/-- The entries of a name in one layer, put over those in a base. -/
def onto (outer base : Entries) : Entries :=
  ⟨if outer.excluded.isSome then none else outer.included.or base.included,
    outer.excluded.or (if outer.included.isSome then none else base.excluded)⟩

/-- A name stands in one set at most. -/
def Single (e : Entries) : Prop := e.included = none ∨ e.excluded = none

theorem onto_assoc (a b c : Entries) : c.onto (b.onto a) = (c.onto b).onto a := by
  obtain ⟨bin, bex⟩ := b
  obtain ⟨cin, cex⟩ := c
  -- the bottom layer counts where neither of the others lists the name
  cases cex <;> cases cin <;> cases bex <;> cases bin <;> rfl

theorem onto_onto_self (a b : Entries) : b.onto (b.onto a) = b.onto a := by
  obtain ⟨bin, bex⟩ := b
  cases bex <;> cases bin <;> rfl

theorem onto_none (a : Entries) : onto ⟨none, none⟩ a = a := rfl

theorem none_onto {a : Entries} (h : a.Single) : a.onto ⟨none, none⟩ = a := by
  obtain ⟨ain, aex⟩ := a
  rcases h with rfl | rfl
  · cases aex <;> rfl
  · cases ain <;> rfl

theorem Single.onto {a : Entries} (h : a.Single) (b : Entries) : (b.onto a).Single := by
  obtain ⟨ain, aex⟩ := a
  obtain ⟨bin, bex⟩ := b
  cases bex with
  | some rule => exact Or.inl rfl
  | none =>
      cases bin with
      | some rule => exact Or.inr rfl
      | none => exact h

end Entries

/-! ## §2. All names. -/

/-- The entries of a name. -/
def entries (p : Policy) (name : String) : Entries := ⟨p.includes[name]?, p.excludes[name]?⟩

/-- No name stands in both sets. -/
def Apart (p : Policy) : Prop := ∀ name ∈ p.includes, name ∉ p.excludes

theorem ext_entries (h : ∀ name, p.entries name = q.entries name) : p = q := by
  obtain ⟨pin, pex⟩ := p
  obtain ⟨qin, qex⟩ := q
  have hin : pin = qin :=
    Std.ExtTreeMap.ext_getElem? fun name => congrArg Entries.included (h name)
  have hex : pex = qex :=
    Std.ExtTreeMap.ext_getElem? fun name => congrArg Entries.excluded (h name)
  rw [hin, hex]

theorem apart_iff : p.Apart ↔ ∀ name, (p.entries name).Single := by
  unfold Apart Entries.Single entries
  simp only [Std.ExtTreeMap.mem_iff_isSome_getElem?]
  refine forall_congr' fun name => ?_
  cases p.includes[name]? <;> cases p.excludes[name]? <;> simp

/-- **Layering works name by name.** -/
theorem entries_merge (base outer : Policy) (name : String) :
    (merge base outer).entries name = (outer.entries name).onto (base.entries name) := by
  unfold entries Entries.onto
  simp only [merge_includes_getElem?, merge_excludes_getElem?,
    Std.ExtTreeMap.mem_iff_isSome_getElem?]

theorem entries_empty (name : String) : empty.entries name = ⟨none, none⟩ := by
  simp [entries, empty]

/-! ## §3. Rule by rule. -/

/-- Puts a rule into the first of two sets, and takes its name out of the second. -/
def place (sets : RuleSet × RuleSet) (rule : String × Rule) : RuleSet × RuleSet :=
  (sets.1.insert rule.1 rule.2, sets.2.erase rule.1)

/-- Layers rules over a policy one after the other: those to include, then those to exclude. -/
def mergeInTurn (base : Policy) (includes excludes : List (String × Rule)) : Policy :=
  let (included, excluded) := includes.foldl place (base.includes, base.excludes)
  let (excluded, included) := excludes.foldl place (excluded, included)
  ⟨included, excluded⟩

/-- Of the rules that were put down for a name the last one counts, and the other set has
none. -/
theorem getElem?_foldl_place (rules : List (String × Rule)) (sets : RuleSet × RuleSet)
    (name : String) :
    (rules.foldl place sets).1[name]? = (rules.reverse.lookup name).or sets.1[name]?
      ∧ (rules.foldl place sets).2[name]?
        = if (rules.reverse.lookup name).isSome then none else sets.2[name]? := by
  induction rules using List.reverseRecOn with
  | nil => exact ⟨rfl, rfl⟩
  | append_singleton rules last ih =>
      obtain ⟨key, rule⟩ := last
      obtain ⟨hfirst, hsecond⟩ := ih
      rw [List.foldl_append, List.reverse_append]
      show ((rules.foldl place sets).1.insert key rule)[name]?
          = (List.lookup name ((key, rule) :: rules.reverse)).or sets.1[name]?
        ∧ ((rules.foldl place sets).2.erase key)[name]?
          = if (List.lookup name ((key, rule) :: rules.reverse)).isSome then none
            else sets.2[name]?
      rw [Std.ExtTreeMap.getElem?_insert, Std.ExtTreeMap.getElem?_erase, hfirst, hsecond]
      by_cases hname : name = key
      · subst hname
        simp
      · have hlookup : List.lookup name ((key, rule) :: rules.reverse)
            = rules.reverse.lookup name := by
          rw [List.lookup_cons, beq_false_of_ne hname]
        rw [hlookup]
        simp [Ne.symm hname]

/-- Rules in whatever order tell their set. -/
theorem lookup_of_perm {rules : List (String × Rule)} {set : RuleSet}
    (h : rules.Perm set.toList) (name : String) : rules.lookup name = set[name]? := by
  have hmem (rule : Rule) : (name, rule) ∈ rules ↔ set[name]? = some rule :=
    h.mem_iff.trans Std.ExtTreeMap.mem_toList_iff_getElem?_eq_some
  cases hlookup : rules.lookup name with
  | none =>
      cases hset : set[name]? with
      | none => rfl
      | some rule =>
          have hne := List.lookup_eq_none_iff.mp hlookup _ ((hmem rule).mpr hset)
          simp at hne
  | some rule =>
      obtain ⟨before, after, hrules, -⟩ := List.lookup_eq_some_iff.mp hlookup
      exact ((hmem rule).mp (by rw [hrules]; simp)).symm

theorem foldl_place_of_perm {rules : List (String × Rule)} {set : RuleSet}
    (h : rules.Perm set.toList) (sets : RuleSet × RuleSet) :
    rules.foldl place sets = (sets.1 ∪ set, sets.2 \ set) := by
  have hlookup (name : String) : rules.reverse.lookup name = set[name]? :=
    lookup_of_perm (rules.reverse_perm.trans h) name
  refine Prod.ext (Std.ExtTreeMap.ext_getElem? fun name => ?_)
    (Std.ExtTreeMap.ext_getElem? fun name => ?_)
  · rw [(getElem?_foldl_place rules sets name).1, hlookup, Std.ExtTreeMap.getElem?_union]
  · rw [(getElem?_foldl_place rules sets name).2, hlookup, Std.ExtTreeMap.getElem?_diff]
    simp only [Std.ExtTreeMap.mem_iff_isSome_getElem?]

/-- The order of the rules in a set makes no difference to what it is layered over. -/
theorem mergeInTurn_eq_merge {includes excludes : List (String × Rule)} (base : Policy)
    (hin : includes.Perm outer.includes.toList) (hex : excludes.Perm outer.excludes.toList) :
    mergeInTurn base includes excludes = merge base outer := by
  simp only [mergeInTurn, foldl_place_of_perm hin, foldl_place_of_perm hex, merge]

/-! ## §4. The laws. -/

/-- A policy that was accepted has a set without entries. -/
theorem apart_of_tryOfEntries {includes excludes : List (String × Rule)}
    (h : tryOfEntries includes excludes = .ok p) : p.Apart := by
  intro name hin hout
  rcases isEmpty_of_tryOfEntries h with hempty | hempty
  · simp [hempty] at hin
  · simp [hempty] at hout

theorem Apart.merge (h : base.Apart) (outer : Policy) : (base.merge outer).Apart := by
  rw [apart_iff] at h ⊢
  intro name
  rw [entries_merge]
  exact (h name).onto _

theorem merge_assoc (a b c : Policy) : merge (merge a b) c = merge a (merge b c) := by
  refine ext_entries fun name => ?_
  simp only [entries_merge]
  exact Entries.onto_assoc ..

theorem merge_empty (p : Policy) : merge p empty = p := by
  refine ext_entries fun name => ?_
  rw [entries_merge, entries_empty]
  exact Entries.onto_none _

theorem empty_merge (h : p.Apart) : merge empty p = p := by
  refine ext_entries fun name => ?_
  rw [entries_merge, entries_empty]
  exact Entries.none_onto (apart_iff.mp h name)

theorem merge_merge_self (base outer : Policy) :
    merge (merge base outer) outer = merge base outer := by
  refine ext_entries fun name => ?_
  simp only [entries_merge]
  exact Entries.onto_onto_self ..

/-- **Layering is a monoid.**  Over a policy that lists no name twice, whatever is layered, no
name is listed twice; the policy that lists none is neutral on both sides; layers may be put
together in any grouping, and one that is put on twice counts once.  All this holds of the sets
with their rules, and it does not matter in which order the rules of a layer are put down.  Every
policy that was accepted lists no name twice. -/
theorem merge_laws {a : Policy} (ha : a.Apart) (b c : Policy)
    {includes excludes : List (String × Rule)} (hin : includes.Perm b.includes.toList)
    (hex : excludes.Perm b.excludes.toList) :
    (merge a b).Apart
      ∧ merge (merge a b) c = merge a (merge b c)
      ∧ merge empty a = a ∧ merge a empty = a
      ∧ merge (merge a b) b = merge a b
      ∧ mergeInTurn a includes excludes = merge a b
      ∧ ∀ given others accepted, tryOfEntries given others = .ok accepted → accepted.Apart :=
  ⟨ha.merge b, merge_assoc a b c, empty_merge ha, merge_empty a, merge_merge_self a b,
    mergeInTurn_eq_merge a hin hex, fun _ _ _ h => apart_of_tryOfEntries h⟩

/-- The same of a layer that lists two names, one of them known below it, put down from the last
rule to the first. -/
theorem merge_laws_of_two_rules :
    let base := ofEntries [("via", .keep), ("age", .redact)] []
    let layer := ofEntries [] [("via", .delete), ("cookie", .redact)]
    mergeInTurn base [] [("via", .delete), ("cookie", .redact)] = merge base layer
      ∧ (merge base layer).Apart
      ∧ merge (merge base layer) layer = merge base layer
      ∧ (merge base layer).includes.toList = [("age", .redact)] := by
  intro base layer
  have haccepted : tryOfEntries [("via", .keep), ("age", .redact)] [] = .ok base :=
    if_neg (by decide +kernel)
  have hin : ([] : List (String × Rule)).Perm layer.includes.toList := by decide +kernel
  have hex : [("via", Rule.delete), ("cookie", .redact)].Perm layer.excludes.toList := by
    decide +kernel
  obtain ⟨hapart, -, -, -, htwice, hturn, -⟩ :=
    merge_laws (apart_of_tryOfEntries haccepted) layer empty hin hex
  exact ⟨hturn, hapart, htwice, by decide +kernel⟩

end Wiretap.Policy
