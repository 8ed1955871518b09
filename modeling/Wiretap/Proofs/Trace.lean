/-
  Wiretap.Proofs.Trace
  ────────────────────
  **WHAT THE HISTORY TELLS OF RECORDS.**

  Of all that is noted, the marks are what a dispatch does to a record: it is handed to a
  sink, or it is finished as delivered.  The drops are the records that were finished without
  a dispatch.  Each step of the log adds to one of them, or is silent:

    • `Journal.finish_delivered`, `Journal.finish_dropped` — the end of a record,
    • `Journal.stepJob_marks` — a dispatch, step by step, adds the marks of its record.
-/
import Wiretap.Proofs.Notices

namespace Wiretap

/-! ## §1. Marks and drops. -/

/-- What a dispatch does to a record. -/
inductive Mark
  | handed (sink : Nat) (record : Record)
  | delivered (id : ExchangeId) (finalizer : Finalizer)

namespace Notice

/-- The mark that a notice is. -/
def mark? : Notice → Option Mark
  | .handed sink r _ => some (.handed sink r)
  | .finished id finalizer (.delivered _) => some (.delivered id finalizer)
  | _ => none

/-- The finalizer of a dropped record. -/
def drop? : Notice → Option (ExchangeId × Finalizer)
  | .finished id finalizer .dropped => some (id, finalizer)
  | _ => none

/-- The finalizer that ran, however its record ended. -/
def ending? : Notice → Option (ExchangeId × Finalizer)
  | .finished id finalizer _ => some (id, finalizer)
  | _ => none

end Notice

/-- The end of a record, if a mark is that. -/
def Mark.ending? : Mark → Option (ExchangeId × Finalizer)
  | .delivered id finalizer => some (id, finalizer)
  | .handed .. => none

/-- All marks of a record: it is handed to each of the sinks, in order, and delivered. -/
def Record.marks (r : Record) (sinks : Nat) : List Mark :=
  (List.range sinks).map (Mark.handed · r) ++ r.owes.map fun o => .delivered o.1 o.2

/-- The marks of a record so far, while it is dispatched. -/
def Job.marks (sinks : Nat) : Job → List Mark
  | .calling r next _ => (List.range next).map (Mark.handed · r)
  | .finishing r _ => (List.range sinks).map (Mark.handed · r)

/-- A job goes on to a sink, or there is none left. -/
def Job.Within (sinks : Nat) : Job → Prop
  | .calling _ next _ => next ≤ sinks
  | .finishing .. => True

namespace Journal

variable {j j' j'' : Journal}

/-- The marks in the history. -/
def marks (j : Journal) : List Mark := j.history.filterMap Notice.mark?

/-- The drops in the history. -/
def drops (j : Journal) : List (ExchangeId × Finalizer) := j.history.filterMap Notice.drop?

/-- The finalizers that ran. -/
def endings (j : Journal) : List (ExchangeId × Finalizer) := j.history.filterMap Notice.ending?

/-- A finalizer ran for a delivered record or for a dropped one. -/
theorem endings_perm (j : Journal) :
    (j.marks.filterMap Mark.ending? ++ j.drops).Perm j.endings := by
  unfold marks drops endings
  induction j.history with
  | nil => exact List.Perm.refl []
  | cons notice rest ih =>
      -- by induction on the history; only the end of a record counts on either side
      cases notice with
      | handed sink r disk => exact ih
      | heard listener id result => exact ih
      | event e => exact ih
      | finished id finalizer disposition =>
          cases disposition with
          | delivered result => exact ih.cons (id, finalizer)
          | dropped => exact List.perm_middle.trans (ih.cons (id, finalizer))

/-! ## §2. Silent steps. -/

/-- From one journal to a later one nothing happened to a record, and the store was left
alone but for the files of the sinks. -/
structure Silent (j j' : Journal) : Prop where
  beside : Beside j j'
  history : ∃ aside, j'.history = j.history ++ aside
    ∧ ∀ notice ∈ aside, notice.mark? = none ∧ notice.drop? = none

namespace Silent

theorem refl (j : Journal) : Silent j j :=
  ⟨.refl j, [], (List.append_nil _).symm, fun _ hmem => absurd hmem List.not_mem_nil⟩

theorem trans (h : Silent j j') (h' : Silent j' j'') : Silent j j'' := by
  obtain ⟨aside, hh, haside⟩ := h.history
  obtain ⟨aside', hh', haside'⟩ := h'.history
  refine ⟨h.beside.trans h'.beside, aside ++ aside', ?_, ?_⟩
  · rw [hh', hh, List.append_assoc]
  · intro notice hmem
    rcases List.mem_append.mp hmem with hmem | hmem
    · exact haside notice hmem
    · exact haside' notice hmem

/-- Notices about no record are silent, where the store is left alone. -/
theorem of_adds {notices : List Notice} (hb : Beside j j') (h : Adds j notices j')
    (habout : ∀ notice ∈ notices, notice.mark? = none ∧ notice.drop? = none) : Silent j j' :=
  ⟨hb, notices, h.history, habout⟩

/-- What leaves store, sinks and history alone, up to the counters. -/
theorem of_same (hr : j'.store.repository = j.store.repository)
    (hd : j'.store.disk = j.store.disk) (hs : j'.delegate.sinks = j.delegate.sinks)
    (hh : j'.history = j.history) : Silent j j' :=
  ⟨.of_same hr hd hs, [], hh.trans (List.append_nil _).symm,
    fun _ hmem => absurd hmem List.not_mem_nil⟩

theorem marks (h : Silent j j') : j'.marks = j.marks := by
  obtain ⟨aside, hh, haside⟩ := h.history
  unfold Journal.marks
  rw [hh, List.filterMap_append, List.filterMap_eq_nil_iff.mpr fun n hn => (haside n hn).1,
    List.append_nil]

theorem drops (h : Silent j j') : j'.drops = j.drops := by
  obtain ⟨aside, hh, haside⟩ := h.history
  unfold Journal.drops
  rw [hh, List.filterMap_append, List.filterMap_eq_nil_iff.mpr fun n hn => (haside n hn).2,
    List.append_nil]

end Silent

/-- Notices about no record are silent. -/
theorem note_silent (j : Journal) {notices : List Notice}
    (h : ∀ notice ∈ notices, notice.mark? = none ∧ notice.drop? = none) :
    Silent j (j.note notices) := .of_adds (note_beside j notices) (j.note_adds notices) h

theorem count_silent (j : Journal) (f : Metrics → Metrics) : Silent j (j.count f) :=
  .of_same rfl rfl rfl rfl

/-- A dispatch begins, and the store is not touched. -/
theorem enter_silent (j : Journal) : Silent j j.enter := by
  rw [enter_eq]
  exact .of_same rfl rfl rfl rfl

theorem leave_silent (j : Journal) : Silent j j.leave := by
  rw [leave_eq]
  exact .of_same rfl rfl rfl rfl

theorem notify_silent (j : Journal) (r : Record) (result : SinkResult) :
    Silent j (j.notify r result) := by
  rw [notify_eq]
  refine note_silent j fun notice hmem => ?_
  obtain ⟨listener, -, rfl⟩ := List.mem_map.mp hmem
  exact ⟨rfl, rfl⟩

/-! ## §3. Sinks and ends. -/

/-- A call of a sink is a mark. -/
theorem callSink_marks (j : Journal) (r : Record) {index : Nat}
    (h : index < j.delegate.sinks.length) :
    (j.callSink r index).2.marks = j.marks ++ [.handed index r]
      ∧ (j.callSink r index).2.drops = j.drops
      ∧ (j.callSink r index).2.delegate.sinks.length = j.delegate.sinks.length := by
  have hadds := callSink_adds (r := r) (List.getElem?_eq_getElem h)
  refine ⟨(hadds.filterMap Notice.mark?).trans ?_, (hadds.filterMap Notice.drop?).trans ?_,
    (callSink_beside j r index).sinks_length⟩
  · rw [Handover.filterMap_notices _ _ _ fun _ _ => rfl]
    rfl
  · rw [Handover.filterMap_notices _ _ _ fun _ _ => rfl]
    exact List.append_nil _

/-- A delivered record is one more mark, unless its finalizer had run. -/
theorem finish_delivered (j : Journal) (r : Record) (result : SinkResult) :
    (j.finish r (.delivered result)).1.marks
        = j.marks ++ r.owes.map (fun o => .delivered o.1 o.2)
      ∧ (j.finish r (.delivered result)).1.drops = j.drops := by
  have hadds := j.finish_adds r (.delivered result)
  refine ⟨(hadds.filterMap Notice.mark?).trans ?_, (hadds.filterMap Notice.drop?).trans ?_⟩
  · unfold Record.endNotices Record.owes
    cases r.finalizer <;> rfl
  · unfold Record.endNotices Record.owes
    cases r.finalizer <;> exact List.append_nil _

/-- A dropped record is one more drop, unless its finalizer had run. -/
theorem finish_dropped (j : Journal) (r : Record) :
    (j.finish r .dropped).1.marks = j.marks
      ∧ (j.finish r .dropped).1.drops = j.drops ++ r.owes := by
  have hadds := j.finish_adds r .dropped
  refine ⟨(hadds.filterMap Notice.mark?).trans ?_, (hadds.filterMap Notice.drop?).trans ?_⟩
  · unfold Record.endNotices Record.owes
    cases r.finalizer <;> exact List.append_nil _
  · unfold Record.endNotices Record.owes
    cases r.finalizer <;> rfl

/-! ## §4. A dispatch, step by step. -/

/-- The record of a job stays the same, and its marks grow until all of them are there. -/
theorem stepJob_marks (j : Journal) {job : Job} (hwithin : job.Within j.delegate.sinks.length)
    {before : List Mark} (h : j.marks = before ++ job.marks j.delegate.sinks.length) :
    (match (j.stepJob job).1 with
      | .inl next => next.record = job.record ∧ next.Within j.delegate.sinks.length
          ∧ (j.stepJob job).2.marks = before ++ next.marks j.delegate.sinks.length
      | .inr _ => (j.stepJob job).2.marks
          = before ++ job.record.marks j.delegate.sinks.length)
      ∧ (j.stepJob job).2.drops = j.drops
      ∧ (j.stepJob job).2.delegate.sinks.length = j.delegate.sinks.length := by
  cases job with
  | calling r next result =>
      by_cases hnext : next < j.delegate.sinks.length
      · obtain ⟨hmarks, hdrops, hsinks⟩ := callSink_marks j r hnext
        simp only [stepJob, if_pos hnext]
        refine ⟨⟨rfl, hnext, ?_⟩, hdrops, hsinks⟩
        show (j.callSink r next).2.marks = _
        -- one more sink has seen the record
        rw [hmarks, h, List.append_assoc, Job.marks, Job.marks, List.range_succ, List.map_append]
        rfl
      · -- all sinks have been called, and what is left is to tell
        have hall : next = j.delegate.sinks.length :=
          Nat.le_antisymm hwithin (Nat.not_lt.mp hnext)
        have hsilent := (notify_silent j r result).trans (leave_silent _)
        simp only [stepJob, if_neg hnext]
        refine ⟨⟨rfl, trivial, ?_⟩, hsilent.drops, hsilent.beside.sinks_length⟩
        rw [hsilent.marks, h, hall]
        rfl
  | finishing r result =>
      obtain ⟨hmarks, hdrops⟩ := finish_delivered j r result
      refine ⟨?_, hdrops, ?_⟩
      · show (j.finish r (.delivered result)).1.marks = _
        rw [hmarks, h, List.append_assoc]
        rfl
      · show (j.finish r (.delivered result)).1.delegate.sinks.length = _
        rw [finish_delegate]

end Journal

end Wiretap
