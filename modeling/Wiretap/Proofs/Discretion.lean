/-
  Wiretap.Proofs.Discretion
  ─────────────────────────
  **PROTECTED HEADERS LEAVE NO TRACE.**

  What a policy redacts or deletes cannot be told from anything that is recorded.  This is said
  of two exchanges: they look alike (`LooksAlike`) when what is kept is the same, what is
  redacted stands in the same places, and what is deleted is left out of account; and then
  everything that is made of them is the same.

    • `LooksAlike.mono`               — what looks alike does so under stronger rules,
    • `Http.Headers.ofFields_alike`   — fields that look alike make header maps that do,
    • `Policy.filter_eq_of_alike`     — header maps that look alike are recorded alike,
    • `Recording.indistinct_of_alike` — exchanges that look alike are told of in the same way.
-/
import Wiretap.Exchange.Completed

namespace Wiretap

/-! ## §1. What a reader is shown. -/

/-- Two lists of named values look alike to a reader to whom each value is shown by the rule for
its name: what is kept is the same, what is redacted stands in the same places and differs as
`like` allows, and what is deleted may be there or not. -/
inductive LooksAlike {α : Type} (rule : String → Rule) (like : α → α → Prop) :
    List (String × α) → List (String × α) → Prop
  | nil : LooksAlike rule like [] []
  | kept {name : String} {a : α} {l l' : List (String × α)} (hrule : rule name = .keep)
      (h : LooksAlike rule like l l') : LooksAlike rule like ((name, a) :: l) ((name, a) :: l')
  | redacted {name : String} {a a' : α} {l l' : List (String × α)} (hrule : rule name = .redact)
      (hlike : like a a') (h : LooksAlike rule like l l') :
      LooksAlike rule like ((name, a) :: l) ((name, a') :: l')
  | deleted {name : String} {a : α} {l l' : List (String × α)} (hrule : rule name = .delete)
      (h : LooksAlike rule like l l') : LooksAlike rule like ((name, a) :: l) l'
  | added {name : String} {a : α} {l l' : List (String × α)} (hrule : rule name = .delete)
      (h : LooksAlike rule like l l') : LooksAlike rule like l ((name, a) :: l')

/-- What looks alike does so all the more where more is protected. -/
theorem LooksAlike.mono {α : Type} {rule rule' : String → Rule} {like : α → α → Prop}
    {l l' : List (String × α)} (hrefl : ∀ a, like a a)
    (hle : ∀ name, (rule name).protection ≤ (rule' name).protection)
    (h : LooksAlike rule like l l') : LooksAlike rule' like l l' := by
  induction h with
  | nil => exact .nil
  | @kept name a l l' hrule h ih =>
      cases hrule' : rule' name with
      | keep => exact .kept hrule' ih
      | redact => exact .redacted hrule' (hrefl a) ih
      | delete => exact .deleted hrule' (.added hrule' ih)
  | @redacted name a a' l l' hrule hlike h ih =>
      have hname := hle name
      rw [hrule] at hname
      cases hrule' : rule' name with
      | keep =>
          rw [hrule'] at hname
          exact absurd hname (by decide)
      | redact => exact .redacted hrule' hlike ih
      | delete => exact .deleted hrule' (.added hrule' ih)
  | @deleted name a l l' hrule h ih =>
      have hname := hle name
      rw [hrule, Rule.delete_protection_le] at hname
      exact .deleted hname ih
  | @added name a l l' hrule h ih =>
      have hname := hle name
      rw [hrule, Rule.delete_protection_le] at hname
      exact .added hname ih

theorem LooksAlike.symm {α : Type} {rule : String → Rule} {like : α → α → Prop}
    {l l' : List (String × α)} (hsymm : ∀ a a', like a a' → like a' a)
    (h : LooksAlike rule like l l') : LooksAlike rule like l' l := by
  induction h with
  | nil => exact .nil
  | kept hrule _ ih => exact .kept hrule ih
  | redacted hrule hlike _ ih => exact .redacted hrule (hsymm _ _ hlike) ih
  | deleted hrule _ ih => exact .added hrule ih
  | added hrule _ ih => exact .deleted hrule ih

/-! ## §2. Header maps. -/

namespace Http.Headers

variable {rule rule' : String → Rule} {h h' : Headers} {name : String}

/-- Two header maps look alike: a name that is redacted has equally many values in both. -/
def Alike (rule : String → Rule) (h h' : Headers) : Prop :=
  LooksAlike rule (fun values values' => values.length = values'.length) h.groups h'.groups

theorem Alike.mono (hle : ∀ name, (rule name).protection ≤ (rule' name).protection)
    (halike : h.Alike rule h') : h.Alike rule' h' := LooksAlike.mono (fun _ => rfl) hle halike

theorem Alike.symm (halike : h.Alike rule h') : h'.Alike rule h :=
  LooksAlike.symm (fun _ _ hcount => hcount.symm) halike

/-- A header that is kept has the same values in both. -/
theorem Alike.values (halike : h.Alike rule h') (hkeep : rule name = .keep) :
    h.values name = h'.values name := by
  obtain ⟨groups⟩ := h
  obtain ⟨groups'⟩ := h'
  unfold Alike at halike
  dsimp only at halike
  unfold Headers.values
  dsimp only
  -- by induction on what looks alike; the name itself is neither redacted nor deleted
  have hother {n : String} (hrule : rule n ≠ .keep) : (n == name) = false :=
    beq_false_of_ne fun heq => hrule (heq ▸ hkeep)
  induction halike with
  | nil => rfl
  | @kept n values l l' hrule h ih =>
      by_cases heq : n = name
      · rw [List.find?_cons_of_pos (by simpa using heq), List.find?_cons_of_pos (by simpa using heq)]
      · rwa [List.find?_cons_of_neg (by simpa using heq), List.find?_cons_of_neg (by simpa using heq)]
  | redacted hrule hlike h ih =>
      have hneg := hother (fun hk => nomatch hrule.symm.trans hk)
      rwa [List.find?_cons_of_neg (by simpa using hneg), List.find?_cons_of_neg (by simpa using hneg)]
  | deleted hrule h ih =>
      rwa [List.find?_cons_of_neg (by simpa using hother (fun hk => nomatch hrule.symm.trans hk))]
  | added hrule h ih =>
      rwa [List.find?_cons_of_neg (by simpa using hother (fun hk => nomatch hrule.symm.trans hk))]

/-- One more field that is shown, in both. -/
theorem Alike.appendTo {groups groups' : List (String × List Bytes)} {value value' : Bytes}
    (halike : Alike rule ⟨groups⟩ ⟨groups'⟩) (hshown : rule name ≠ .delete)
    (hvalue : rule name = .keep → value = value') :
    Alike rule ⟨Headers.appendTo name value groups⟩ ⟨Headers.appendTo name value' groups'⟩ := by
  have hother {n : String} (hrule : rule n = .delete) : n ≠ name :=
    fun heq => hshown (heq ▸ hrule)
  unfold Alike at halike ⊢
  dsimp only at halike ⊢
  induction halike with
  | nil =>
      unfold Headers.appendTo
      cases hrule : rule name with
      | keep =>
          rw [hvalue hrule]
          exact .kept hrule .nil
      | redact => exact .redacted hrule rfl .nil
      | delete => exact absurd hrule hshown
  | @kept n values l l' hrule h ih =>
      unfold Headers.appendTo
      split
      next heq =>
        rw [hvalue (heq ▸ hrule)]
        exact .kept hrule h
      next => exact .kept hrule ih
  | @redacted n values values' l l' hrule hlike h ih =>
      unfold Headers.appendTo
      split
      next => exact .redacted hrule (by rw [List.length_append, List.length_append, hlike]; rfl) h
      next => exact .redacted hrule hlike ih
  | deleted hrule h ih =>
      rw [Headers.appendTo, if_neg (hother hrule)]
      exact .deleted hrule ih
  | added hrule h ih =>
      rw [Headers.appendTo, if_neg (hother hrule)]
      exact .added hrule ih

/-- One more field that is deleted, in one of them. -/
theorem Alike.appendTo_deleted {groups groups' : List (String × List Bytes)} (value : Bytes)
    (halike : Alike rule ⟨groups⟩ ⟨groups'⟩) (hdelete : rule name = .delete) :
    Alike rule ⟨Headers.appendTo name value groups⟩ ⟨groups'⟩ := by
  have hother {n : String} (hrule : rule n ≠ .delete) : n ≠ name :=
    fun heq => hrule (heq ▸ hdelete)
  unfold Alike at halike ⊢
  dsimp only at halike ⊢
  induction halike with
  | nil => exact .deleted hdelete .nil
  | kept hrule h ih =>
      rw [Headers.appendTo, if_neg (hother (fun hd => nomatch hrule.symm.trans hd))]
      exact .kept hrule ih
  | redacted hrule hlike h ih =>
      rw [Headers.appendTo, if_neg (hother (fun hd => nomatch hrule.symm.trans hd))]
      exact .redacted hrule hlike ih
  | deleted hrule h ih =>
      unfold Headers.appendTo
      split
      next => exact .deleted hrule h
      next => exact .deleted hrule ih
  | added hrule h ih => exact .added hrule ih

/-- The fields added to those that are there, one after another. -/
def appendAll (h : Headers) (fields : List (String × Bytes)) : Except FieldError Headers :=
  fields.foldlM (fun m f => m.append f.1 f.2) h

/-- The first field is added before those behind it, where none of them is at fault. -/
theorem appendAll_of_cons {value : Bytes} {rest : List (String × Bytes)} {m : Headers}
    (hm : h.appendAll ((name, value) :: rest) = .ok m) :
    appendAll ⟨Headers.appendTo (Text.asciiLower name) value h.groups⟩ rest = .ok m := by
  unfold appendAll at hm ⊢
  rw [List.foldlM_cons] at hm
  unfold append at hm
  split at hm
  next => cases hm
  next =>
    split at hm
    next => cases hm
    next => exact hm

/-- Fields that look alike are added to header maps that do, and they do so again. -/
theorem Alike.appendAll {fields fields' : List (String × Bytes)} {m m' : Headers}
    (hfields : LooksAlike (fun name => rule (Text.asciiLower name)) (fun _ _ => True) fields fields')
    (halike : h.Alike rule h') (hm : h.appendAll fields = .ok m)
    (hm' : h'.appendAll fields' = .ok m') : m.Alike rule m' := by
  -- by induction on the fields, from the maps made so far
  induction hfields generalizing h h' with
  | nil =>
      cases hm
      cases hm'
      exact halike
  | kept hrule _ ih =>
      exact ih (halike.appendTo (by rw [hrule]; nofun) fun _ => rfl)
        (appendAll_of_cons hm) (appendAll_of_cons hm')
  | redacted hrule _ _ ih =>
      exact ih (halike.appendTo (by rw [hrule]; nofun) fun hkeep => nomatch hrule.symm.trans hkeep)
        (appendAll_of_cons hm) (appendAll_of_cons hm')
  | deleted hrule _ ih => exact ih (halike.appendTo_deleted _ hrule) (appendAll_of_cons hm) hm'
  | added hrule _ ih =>
      exact ih (halike.symm.appendTo_deleted _ hrule).symm hm (appendAll_of_cons hm')

/-- Fields that look alike make header maps that do. -/
theorem ofFields_alike {fields fields' : List (String × Bytes)}
    (hfields : LooksAlike (fun name => rule (Text.asciiLower name)) (fun _ _ => True) fields fields')
    (hh : ofFields fields = .ok h) (hh' : ofFields fields' = .ok h') : h.Alike rule h' :=
  Alike.appendAll hfields .nil hh hh'

end Http.Headers

/-! ## §3. Recorded headers. -/

namespace Policy

/-- What is recorded of the values of a name: of those that are redacted, only how many there
are. -/
theorem filterMap_filterField (p : Policy) (name : String) (values : List Bytes) :
    (values.map fun value => (name, value)).filterMap p.filterField
      = match p.resolve name with
        | .keep => values.map fun value => (name, Utf8.decodeLossy value)
        | .redact => List.replicate values.length (name, redactedValue)
        | .delete => [] := by
  induction values with
  | nil => cases p.resolve name <;> rfl
  | cons value rest ih =>
      rw [List.map_cons, List.filterMap_cons, ih]
      unfold filterField
      cases p.resolve name <;> rfl

/-- Header maps that look alike under the rules of a policy are recorded alike. -/
theorem filter_eq_of_alike {p : Policy} {h h' : Http.Headers} (halike : h.Alike p.resolve h') :
    p.filter h = p.filter h' := by
  obtain ⟨groups⟩ := h
  obtain ⟨groups'⟩ := h'
  unfold filter Http.Headers.fields
  unfold Http.Headers.Alike at halike
  dsimp only at halike ⊢
  induction halike with
  | nil => rfl
  | kept hrule _ ih =>
      simp only [List.flatMap_cons, List.filterMap_append, ih]
  | redacted hrule hcount _ ih =>
      simp only [List.flatMap_cons, List.filterMap_append, ih, filterMap_filterField, hrule, hcount]
  | deleted hrule _ ih =>
      simp only [List.flatMap_cons, List.filterMap_append, filterMap_filterField, hrule]
      exact ih
  | added hrule _ ih =>
      simp only [List.flatMap_cons, List.filterMap_append, filterMap_filterField, hrule]
      exact ih

/-- The rules that protect the one header that no policy can show, and nothing else. -/
def authorizationOnly (name : String) : Rule :=
  if Text.asciiLower name = "authorization" then .redact else .keep

/-- Every policy protects at least as much. -/
theorem authorizationOnly_protection_le (p : Policy) (name : String) :
    (authorizationOnly name).protection ≤ (p.resolve name).protection := by
  unfold authorizationOnly resolve resolveLower
  split
  next => exact Nat.le_refl _
  next => exact Nat.zero_le _

end Policy

/-! ## §4. Exchanges. -/

/-- Two exchanges agree but for headers that a reader is not shown. -/
structure CompletedExchange.Alike (rule : String → Rule) (e e' : CompletedExchange) : Prop where
  request : e.requestHeaders.Alike rule e'.requestHeaders
  response : e.responseHeaders.Alike rule e'.responseHeaders
  rest : e' = { e with requestHeaders := e'.requestHeaders, responseHeaders := e'.responseHeaders }

namespace Recording

variable {p : Recording} {e e' : CompletedExchange} {h h' : Http.Headers}

/-- The policy that holds for an exchange. -/
def policyOf (p : Recording) (e : CompletedExchange) : Policy := e.policy.getD p.policy

/-- The coding of a body is told by a header that every policy keeps. -/
theorem contentCoding_eq_of_alike {policy : Policy} (halike : h.Alike policy.resolve h') :
    contentCoding h = contentCoding h' := by
  have hlower : Text.asciiLower "content-encoding" = "content-encoding" := by decide +kernel
  have hkeep : policy.resolve "content-encoding" = .keep := by
    unfold Policy.resolve Policy.resolveLower
    rw [hlower, if_neg (by decide), if_pos (by decide)]
  unfold contentCoding Http.Headers.text? Http.Headers.first?
  rw [halike.values hkeep]

/-- Exchanges that look alike under the policy that holds for them have one record. -/
theorem assemble_eq_of_alike (halike : e.Alike (p.policyOf e).resolve e') (s : Store) :
    p.assemble s e = p.assemble s e' := by
  have hrequest := Policy.filter_eq_of_alike halike.request
  have hresponse := Policy.filter_eq_of_alike halike.response
  have hrequestCoding := contentCoding_eq_of_alike halike.request
  have hresponseCoding := contentCoding_eq_of_alike halike.response
  unfold policyOf at hrequest hresponse
  rw [halike.rest]
  unfold assemble
  dsimp only
  rw [hrequest, hresponse, hrequestCoding, hresponseCoding]

/-- Nothing that is told of two exchanges tells them apart. -/
structure Indistinct (p : Recording) (e e' : CompletedExchange) : Prop where
  record : ∀ s, p.assemble s e = p.assemble s e'
  line : ∀ s detail disk, AccessLine.line detail disk (p.assemble s e)
    = AccessLine.line detail disk (p.assemble s e')
  event : ∀ s, Completion.ofRecord (p.assemble s e) = Completion.ofRecord (p.assemble s e')
  preamble : ∀ s d, Archive.preamble (p.assemble s e) d = Archive.preamble (p.assemble s e') d
  /-- What becomes of the log, its files and its buffers included. -/
  complete : ∀ site, p.complete site e = p.complete site e'

/-- **Protected headers leave no trace.**  Two exchanges that agree but for the values of
redacted headers and for deleted headers, by whatever policy holds for them, are told of in the
same way; and so are two that differ in the values of the authorization header only, under
every policy. -/
theorem indistinct_of_alike (p : Recording)
    (halike : e.Alike (p.policyOf e).resolve e' ∨ e.Alike Policy.authorizationOnly e') :
    p.Indistinct e e' := by
  have heffective : e.Alike (p.policyOf e).resolve e' := by
    rcases halike with halike | halike
    · exact halike
    · have hle := (p.policyOf e).authorizationOnly_protection_le
      exact ⟨halike.request.mono hle, halike.response.mono hle, halike.rest⟩
  have hrecord := assemble_eq_of_alike heffective
  exact ⟨hrecord, fun s detail disk => congrArg _ (hrecord s), fun s => congrArg _ (hrecord s),
    fun s d => congrArg (Archive.preamble · d) (hrecord s),
    fun site => congrArg site.submit (hrecord site.journal.store)⟩

/-- The same of a header that a layered policy redacts and one that it deletes, in maps made of
fields as they came. -/
theorem indistinct_of_alike_of_via :
    let p : Recording := ⟨.merge ⟨∅, .ofList [("via", .redact)] compare⟩
      ⟨∅, .ofList [("age", .delete)] compare⟩, none⟩
    let e (headers : Http.Headers) : CompletedExchange :=
      ⟨⟨"x"⟩, "GET", "/", "r", none, some 200, headers, .empty, ⟨0, 0⟩, .zero, none, none, none⟩
    let fields := [("Via", [65]), ("Accept", [66]), ("via", [67])]
    let fields' := [("Age", [68]), ("Via", [69]), ("Accept", [66]), ("via", [70])]
    (∃ h h', Http.Headers.ofFields fields = .ok h ∧ Http.Headers.ofFields fields' = .ok h'
        ∧ p.Indistinct (e h) (e h'))
      ∧ p.Indistinct (e ⟨[("authorization", [[65]])]⟩) (e ⟨[("authorization", [[66]])]⟩) := by
  intro p e fields fields'
  have hmade (fs : List (String × Bytes)) (hok : (Http.Headers.ofFields fs).isOk = true) :
      ∃ h, Http.Headers.ofFields fs = .ok h := by
    cases hfs : Http.Headers.ofFields fs with
    | ok h => exact ⟨h, rfl⟩
    | error fault =>
        rw [hfs] at hok
        cases hok
  have hlooks : LooksAlike (fun name => p.policy.resolve (Text.asciiLower name)) (fun _ _ => True)
      fields fields' :=
    .added (by decide +kernel) (.redacted (by decide +kernel) trivial
      (.kept (by decide +kernel) (.redacted (by decide +kernel) trivial .nil)))
  obtain ⟨h, hh⟩ := hmade fields (by decide +kernel)
  obtain ⟨h', hh'⟩ := hmade fields' (by decide +kernel)
  refine ⟨⟨h, h', hh, hh', p.indistinct_of_alike (Or.inl ⟨?_, .nil, rfl⟩)⟩, ?_⟩
  · exact Http.Headers.ofFields_alike hlooks hh hh'
  · refine p.indistinct_of_alike (Or.inr ⟨?_, .nil, rfl⟩)
    exact .redacted (by decide +kernel) rfl .nil

end Recording

end Wiretap
