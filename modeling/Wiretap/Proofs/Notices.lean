/-
  Wiretap.Proofs.Notices
  ──────────────────────
  **WHAT EACH FUNCTION OF THE LOG NOTES AND COUNTS.**

  A function of the log adds notices to the history, and the totals that a log reports of itself
  are none of its business: they belong to those who submit, to the worker and to the queue.
  Both are said once for each function (`Journal.Adds`).  Who looks for something in the history
  picks it out of these notices:

    • `Journal.settle_totals`  — what becomes of the buffers of an exchange is reported nowhere,
    • `Journal.callSink_adds`  — the call of a sink (`Handover.notices`),
    • `Journal.finish_adds`    — the end of a record (`Record.endNotices`),
    • `Journal.stepJob_adds`   — a dispatch, step by step (`Job.notices`),
    • `Journal.Adds.filterMap` — what is picked out of a history.
-/
import Wiretap.Proofs.Dispatch

namespace Wiretap

/-! ## §1. What is reported. -/

/-- What a log reports of itself. -/
structure Totals where
  dispatched : Nat
  dropped : Nat
  /-- The gauge, if it was ever set. -/
  depth : Option Nat
  deriving DecidableEq, Repr

/-- Of all that is counted, what a log reports. -/
def Metrics.totals (m : Metrics) : Totals := ⟨m.dispatched, m.dropped, m.queueDepth⟩

/-- What is reported so far. -/
def Journal.totals (j : Journal) : Totals := j.store.metrics.totals

namespace Store

theorem cleanupDirection_totals (s : Store) (id : ExchangeId) (d : Direction) :
    (s.cleanupDirection id d).metrics.totals = s.metrics.totals := by
  unfold cleanupDirection
  split
  next => rfl
  next => split <;> rfl

theorem cleanup_totals (s : Store) (id : ExchangeId) :
    (s.cleanup id).metrics.totals = s.metrics.totals :=
  (cleanupDirection_totals _ id .response).trans (cleanupDirection_totals s id .request)

theorem persistDirection_totals (s : Store) (id : ExchangeId) (d : Direction) :
    (s.persistDirection id d).metrics.totals = s.metrics.totals := by
  unfold persistDirection
  split
  next => rfl
  next =>
    split
    next => rfl
    next bytes =>
      dsimp only
      split <;> rfl

theorem persist_totals (s : Store) (id : ExchangeId) :
    (s.persist id).metrics.totals = s.metrics.totals :=
  (persistDirection_totals _ id .response).trans (persistDirection_totals s id .request)

theorem archiveDirection_totals (s : Store) (id : ExchangeId) (target : Path) (preamble : Bytes)
    (d : Direction) :
    (s.archiveDirection id target preamble d).2.metrics.totals = s.metrics.totals := by
  unfold archiveDirection
  dsimp only
  split
  next => rfl
  next =>
    split
    next => rfl
    next =>
      split
      next => split <;> rfl
      next => rfl

theorem archiveInto_totals (s : Store) (id : ExchangeId) (target : Path)
    (preamble : Direction → Bytes) :
    (s.archiveInto id target preamble).2.metrics.totals = s.metrics.totals := by
  have hfirst := archiveDirection_totals s id target (preamble .request) .request
  unfold archiveInto
  split
  next failure s₁ heq =>
    rw [heq] at hfirst
    exact hfirst
  next path s₁ heq =>
    rw [heq] at hfirst
    have hsecond := archiveDirection_totals s₁ id target (preamble .response) .response
    split
    next failure s₂ heq₂ =>
      rw [heq₂] at hsecond
      exact hsecond.trans hfirst
    next path₂ s₂ heq₂ =>
      rw [heq₂] at hsecond
      exact hsecond.trans hfirst

end Store

theorem Archive.archive_totals (s : Store) (base : Path) (r : Record) :
    (archive s base r).2.metrics.totals = s.metrics.totals := by
  unfold archive
  split
  next => rfl
  next directory hshard =>
    split
    next => rfl
    next disk hmade =>
      have hinto := Store.archiveInto_totals { s with disk } r.id directory
        fun d => Utf8.encode (preamble r d)
      dsimp only
      split
      next failure s₁ heq =>
        rw [heq] at hinto
        exact hinto
      next paths s₁ heq =>
        rw [heq] at hinto
        exact hinto

theorem Journal.settle_totals (s : Store) (r : Record) (archive : Option Path)
    (disposition : Disposition) :
    (settle s r archive disposition).metrics.totals = s.metrics.totals := by
  unfold settle
  split
  next => exact s.cleanup_totals r.id
  next result =>
    split
    next =>
      split
      next => exact s.cleanup_totals r.id
      next base =>
        have harchive := Archive.archive_totals s base r
        split
        next directory s₁ heq =>
          rw [heq] at harchive
          exact harchive
        next failure s₁ heq =>
          rw [heq] at harchive
          exact (s₁.persist_totals r.id).trans harchive
    next => exact s.persist_totals r.id

/-! ## §2. What is noted of a call and of an end. -/

/-- A sink and the disk that it is called on. -/
structure Handover where
  sink : Sink
  disk : Disk

namespace Handover

/-- What the call of the sink leads to. -/
def call (h : Handover) (r : Record) : SinkCall := h.sink.call h.disk r

/-- The sink's own errors. -/
def errors (h : Handover) (r : Record) : List SinkError :=
  ((h.call r).answer.result h.sink.name).errors

/-- What is noted of the call, when the sink stands at an index. -/
def notices (h : Handover) (r : Record) (index : Nat) : List Notice :=
  .handed index r h.disk :: (h.call r).events.map .event

/-- Whoever looks for nothing that a sink emits finds the call itself, if he looks for that. -/
theorem filterMap_notices {α : Type} {f : Notice → Option α} (h : Handover) (r : Record)
    (index : Nat) (hevents : ∀ event ∈ (h.call r).events, f (.event event) = none) :
    (h.notices r index).filterMap f = (f (.handed index r h.disk)).toList := by
  have hnone : (h.call r).events.filterMap (f ∘ Notice.event) = [] :=
    List.filterMap_eq_nil_iff.mpr hevents
  unfold notices
  rw [List.filterMap_cons, List.filterMap_map, hnone]
  cases f (.handed index r h.disk) <;> rfl

end Handover

/-- What has to be run for a record: its finalizer, until it has. -/
def Record.owes (r : Record) : List (ExchangeId × Finalizer) := r.finalizer.toList.map (r.id, ·)

/-- What is noted of the end of a record: its finalizer runs, unless it has. -/
def Record.endNotices (r : Record) (disposition : Disposition) : List Notice :=
  r.owes.map fun o => .finished o.1 o.2 disposition

theorem Record.endNotices_of_some {r : Record} {finalizer : Finalizer}
    (h : r.finalizer = some finalizer) (disposition : Disposition) :
    r.endNotices disposition = [.finished r.id finalizer disposition] := by
  simp only [endNotices, owes, h, Option.toList_some, List.map_cons, List.map_nil]

/-- What the next step of a job notes: a call, or that the listeners hear the result, or the end
of the record. -/
def Job.notices (j : Journal) : Job → List Notice
  | .calling r next result =>
    match j.delegate.sinks[next]? with
    | some sink => Handover.notices ⟨sink, j.store.disk⟩ r next
    | none => j.delegate.listeners.map (.heard · r.id result)
  | .finishing r result => r.endNotices (.delivered result)

/-! ## §3. Each function. -/

namespace Journal

variable {j j' j'' : Journal} {notices notices' : List Notice}

/-- From one journal to a later one just these notices were added, and nothing was reported. -/
structure Adds (j : Journal) (notices : List Notice) (j' : Journal) : Prop where
  history : j'.history = j.history ++ notices
  totals : j'.totals = j.totals

namespace Adds

theorem of_same (hhistory : j'.history = j.history) (htotals : j'.totals = j.totals) :
    Adds j [] j' := ⟨hhistory.trans (List.append_nil _).symm, htotals⟩

theorem trans (h : Adds j notices j') (h' : Adds j' notices' j'') :
    Adds j (notices ++ notices') j'' :=
  ⟨by rw [h'.history, h.history, List.append_assoc], h'.totals.trans h.totals⟩

/-- What is picked out of a history is picked out of the notices as well. -/
theorem filterMap {α : Type} (h : Adds j notices j') (f : Notice → Option α) :
    j'.history.filterMap f = j.history.filterMap f ++ notices.filterMap f := by
  rw [h.history, List.filterMap_append]

end Adds

theorem note_adds (j : Journal) (notices : List Notice) : Adds j notices (j.note notices) :=
  ⟨rfl, rfl⟩

theorem enter_adds (j : Journal) : Adds j [] j.enter := by
  rw [enter_eq]
  exact .of_same rfl rfl

theorem leave_adds (j : Journal) : Adds j [] j.leave := by
  rw [leave_eq]
  exact .of_same rfl rfl

theorem notify_adds (j : Journal) (r : Record) (result : SinkResult) :
    Adds j (j.delegate.listeners.map (.heard · r.id result)) (j.notify r result) := by
  rw [notify_eq]
  exact note_adds j _

/-- Errors of sinks are counted apart from what is reported. -/
theorem countErrors_adds (j : Journal) (result : SinkResult) :
    Adds j [] (j.countErrors result) := by
  refine .of_same rfl ?_
  show (result.errors.foldl (fun m e => m.addSinkError e.sink) j.store.metrics).totals
    = j.store.metrics.totals
  generalize j.store.metrics = m
  induction result.errors generalizing m with
  | nil => rfl
  | cons e rest ih => exact ih (m.addSinkError e.sink)

theorem callSink_adds {r : Record} {index : Nat} {sink : Sink}
    (h : j.delegate.sinks[index]? = some sink) :
    Adds j (Handover.notices ⟨sink, j.store.disk⟩ r index) (j.callSink r index).2 := by
  unfold callSink
  rw [h]
  -- the call and what the sink emits are noted one behind the other
  refine ⟨?_, (countErrors_adds _ _).totals⟩
  exact List.append_assoc j.history [.handed index r j.store.disk] _

/-- The end of a record is noted, and the rest is up to its finalizer. -/
theorem finish_eq (j : Journal) (r : Record) (disposition : Disposition) :
    ∃ store, (j.finish r disposition).1 = { j.note (r.endNotices disposition) with store }
      ∧ store.metrics.totals = j.totals := by
  unfold finish Record.takeFinalizer Record.endNotices Record.owes note
  cases r.finalizer with
  | none => exact ⟨j.store, by simp, rfl⟩
  | some finalizer =>
      cases finalizer with
      | announce => exact ⟨j.store, rfl, rfl⟩
      | settle archive => exact ⟨_, rfl, settle_totals _ _ archive disposition⟩

theorem finish_adds (j : Journal) (r : Record) (disposition : Disposition) :
    Adds j (r.endNotices disposition) (j.finish r disposition).1 := by
  obtain ⟨store, heq, htotals⟩ := j.finish_eq r disposition
  rw [heq]
  exact ⟨rfl, htotals⟩

theorem finish_delegate (j : Journal) (r : Record) (disposition : Disposition) :
    (j.finish r disposition).1.delegate = j.delegate := by
  obtain ⟨store, heq, -⟩ := j.finish_eq r disposition
  rw [heq]
  rfl

/-- **A step of a dispatch** notes a call, or what the listeners hear, or an end. -/
theorem stepJob_adds (j : Journal) (job : Job) : Adds j (job.notices j) (j.stepJob job).2 := by
  cases job with
  | calling r next result =>
      simp only [stepJob, Job.notices]
      cases hsink : j.delegate.sinks[next]? with
      | some sink =>
          rw [if_pos (List.getElem?_eq_some_iff.mp hsink).1]
          exact callSink_adds hsink
      | none =>
          rw [if_neg (Nat.not_lt.mpr (List.getElem?_eq_none_iff.mp hsink))]
          have htold := (j.notify_adds r result).trans (leave_adds _)
          rwa [List.append_nil] at htold
  | finishing r result => exact j.finish_adds r (.delivered result)

end Journal

end Wiretap
