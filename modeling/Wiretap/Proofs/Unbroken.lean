/-
  Wiretap.Proofs.Unbroken
  ───────────────────────
  **WHAT IS DONE WITHOUT A BREAK IS ONE OF THE RUNS.**

  The steps of a scene are those of the functions that complete an exchange: when nobody
  else takes a step meanwhile, they do together what the functions do.

    • `Scene.closeTaps_run` — closing all taps,
    • `Scene.submit_run`    — a record and a log that works at once,
    • `Scene.submission_run` — a record and a log in the background,
    • `Scene.complete_run`  — completing an exchange.
-/
import Wiretap.Proofs.Scene

namespace Wiretap.Scene

open Journal

variable {σ : Scene} {k : Nat} {id : ExchangeId} {phase : Phase}

/-! ## §1. Tasks. -/

/-- A task that was moved is where it was moved to. -/
theorem get_put (hk : k < σ.tasks.length) (id : ExchangeId) (phase : Phase) :
    (σ.put k id phase).tasks[k]? = some ⟨id, phase⟩ := List.getElem?_set_self hk

/-- Only where a task is in the end makes a difference. -/
theorem put_put (σ : Scene) (traffic : Traffic) (k : Nat) (id : ExchangeId) (phase phase' : Phase) :
    ({ σ.put k id phase with traffic } : Scene).put k id phase'
      = ({ σ with traffic } : Scene).put k id phase' := by
  unfold put
  dsimp only
  rw [List.set_set]

theorem put_withJournal (σ : Scene) (j : Journal) (k : Nat) (id : ExchangeId)
    (phase phase' : Phase) :
    ((σ.put k id phase).withJournal j).put k id phase' = (σ.withJournal j).put k id phase' :=
  put_put σ _ k id phase phase'

theorem put_withLog (σ : Scene) (b : Background) (k : Nat) (id : ExchangeId)
    (phase phase' : Phase) :
    ((σ.put k id phase).withLog b).put k id phase' = (σ.withLog b).put k id phase' :=
  put_put σ _ k id phase phase'

theorem put_self (hk : σ.tasks[k]? = some ⟨id, phase⟩) : σ.put k id phase = σ := by
  obtain ⟨hlt, hget⟩ := List.getElem?_eq_some_iff.mp hk
  unfold put
  rw [← hget, List.set_getElem_self]

/-! ## §2. Closing taps. -/

theorem closeTaps_run {e : CompletedExchange} {taps : List Nat}
    (hk : σ.tasks[k]? = some ⟨id, .closing e taps⟩) :
    Run σ (({ σ with traffic := σ.traffic.closeTaps taps } : Scene).put k id (.closing e [])) := by
  induction taps generalizing σ with
  | nil =>
      show Run σ (σ.put k id (.closing e []))
      rw [put_self hk]
  | cons number rest ih =>
      have hlt := (List.getElem?_eq_some_iff.mp hk).1
      -- by induction on the taps, from where the first is closed
      have hrest := ih (σ := ({ σ with traffic := σ.traffic.closeTap number } : Scene).put k id
        (.closing e rest)) (get_put hlt id _)
      rw [put_put] at hrest
      exact hrest.head (.closes hk)

/-! ## §3. A log that works at once. -/

theorem callNext_sinks (r : Record) (so : SinkResult × Journal) (index : Nat) :
    (callNext r so index).2.delegate.sinks.length = so.2.delegate.sinks.length :=
  (callSink_beside so.2 r index).sinks_length

/-- What is done when all sinks were called. -/
def concluded (r : Record) (called : SinkResult × Journal) : Journal :=
  (((called.2.notify r called.1).leave.count fun m =>
    { m with dispatched := m.dispatched + 1 }).finish r (.delivered called.1)).1

/-- The rest of a dispatch, from a sink on. -/
theorem dispatch_run (left : Nat) {r : Record} {next : Nat} {result : SinkResult}
    (hk : σ.tasks[k]? = some ⟨id, .dispatching (.calling r next result)⟩)
    (hleft : next + left = σ.journal.delegate.sinks.length) :
    Run σ ((σ.withJournal (concluded r
      ((List.range' next left).foldl (callNext r) (result, σ.journal)))).put k id .over) := by
  induction left generalizing σ next result with
  | zero =>
      have hlt := (List.getElem?_eq_some_iff.mp hk).1
      have hlast : ¬ next < σ.journal.delegate.sinks.length := by omega
      -- no sink is left, so the listeners are told and the record ends
      have hall : σ.journal.stepAtOnce (.calling r next result)
          = (.inl (.finishing r result), (σ.journal.notify r result).leave) := by
        simp only [stepAtOnce, stepJob, if_neg hlast]
      have hfinish := Step.returns (get_put (σ := σ.withJournal (σ.journal.notify r result).leave)
        hlt id (.dispatching (.finishing r result))) rfl
      rw [put_withJournal] at hfinish
      exact (Relation.ReflTransGen.single (.calls hk hall)).tail hfinish
  | succ left ih =>
      have hlt := (List.getElem?_eq_some_iff.mp hk).1
      have hnext : next < σ.journal.delegate.sinks.length := by omega
      -- the next sink is called, and the rest by induction
      have hcall : σ.journal.stepAtOnce (.calling r next result)
          = (.inl (.calling r (next + 1) (callNext r (result, σ.journal) next).1),
            (callNext r (result, σ.journal) next).2) := by
        simp only [stepAtOnce, stepJob, if_pos hnext]
      have hsinks : next + 1 + left
          = (callNext r (result, σ.journal) next).2.delegate.sinks.length := by
        rw [callNext_sinks]
        show next + 1 + left = σ.journal.delegate.sinks.length
        omega
      have hrest := ih (get_put (σ := σ.withJournal (callNext r (result, σ.journal) next).2) hlt id
        (.dispatching (.calling r (next + 1) (callNext r (result, σ.journal) next).1))) hsinks
      rw [put_withJournal] at hrest
      exact hrest.head (.calls hk hcall)

/-- A record is submitted to a log that works at once. -/
theorem submit_run {r : Record} (hk : σ.tasks[k]? = some ⟨id, .submitted r⟩) :
    Run σ ((σ.withJournal (σ.journal.submit r)).put k id .over) := by
  have hlt := (List.getElem?_eq_some_iff.mp hk).1
  by_cases hstopped : σ.journal.delegate.state = .stopped
  · unfold submit
    rw [if_pos hstopped]
    exact .single (.refuses hk hstopped)
  · have hsubmit : σ.journal.submit r = concluded r ((List.range'
        0 σ.journal.enter.delegate.sinks.length).foldl (callNext r) (.ok, σ.journal.enter)) := by
      unfold submit
      rw [if_neg hstopped, ← List.range_eq_range']
      rfl
    have hrest := dispatch_run σ.journal.enter.delegate.sinks.length
      (get_put (σ := σ.withJournal σ.journal.enter) hlt id (.dispatching (.calling r 0 .ok)))
      (Nat.zero_add _)
    rw [put_withJournal] at hrest
    rw [hsubmit]
    exact hrest.head (.enters hk)

/-! ## §4. A log in the background. -/

theorem withLog_self {b : Background} (hb : σ.background? = some b) : σ.withLog b = σ := by
  obtain ⟨queue, hqueue, rfl⟩ := Option.map_eq_some_iff.mp hb
  unfold withLog
  rw [← hqueue]
  rfl

/-- A record is submitted to a log in the background. -/
theorem submission_run (steps : Nat) {s : Submission} {b : Background}
    (hk : σ.tasks[k]? = some ⟨id, .submitting s⟩) (hb : σ.background? = some b) :
    ∃ s', Run σ ((σ.withLog (Submission.run steps s b)).put k id (.submitting s')) := by
  induction steps generalizing σ s b with
  | zero =>
      refine ⟨s, ?_⟩
      show Run σ ((σ.withLog b).put k id (.submitting s))
      rw [withLog_self hb, put_self hk]
  | succ steps ih =>
      by_cases hdone : s = .done
      · subst hdone
        refine ⟨.done, ?_⟩
        show Run σ ((σ.withLog b).put k id (.submitting .done))
        rw [withLog_self hb, put_self hk]
      · have hlt := (List.getElem?_eq_some_iff.mp hk).1
        -- the first step, and the rest by induction
        have hrun : Submission.run (steps + 1) s b
            = Submission.run steps (s.step b).1 (s.step b).2 := by
          cases s with
          | done => exact absurd rfl hdone
          | _ => rfl
        obtain ⟨s', hrest⟩ := ih (get_put (σ := σ.withLog (s.step b).2) hlt id
          (.submitting (s.step b).1)) rfl
        rw [put_withLog] at hrest
        rw [hrun]
        exact ⟨s', hrest.head (.submits hk hdone hb)⟩

/-! ## §5. Completing an exchange. -/

/-- A record is handed to the log, whichever it is. -/
theorem handover_run {e : CompletedExchange} (hk : σ.tasks[k]? = some ⟨id, .closing e []⟩) :
    ∃ phase, Run σ (({ σ with traffic := σ.traffic.complete e } : Scene).put k id phase) := by
  have hlt := (List.getElem?_eq_some_iff.mp hk).1
  have hfirst := Step.hands hk
  unfold handover at hfirst
  cases hqueue : σ.traffic.site.queue with
  | none =>
      rw [hqueue] at hfirst
      have hrest := submit_run (get_put hlt id (.submitted (σ.traffic.recording.assemble
        σ.journal.store e)))
      rw [put_withJournal] at hrest
      -- without a queue, only the journal changes
      have hcomplete : σ.traffic.complete e = (σ.withJournal (σ.journal.submit
          (σ.traffic.recording.assemble σ.journal.store e))).traffic := by
        unfold Traffic.complete Recording.complete Site.submit
        split
        next => rfl
        next hsome => cases hqueue.symm.trans hsome
      rw [hcomplete]
      exact ⟨.over, hrest.head hfirst⟩
  | some queue =>
      rw [hqueue] at hfirst
      have hlog : (σ.put k id (.submitting (.fresh (σ.traffic.recording.assemble
          σ.journal.store e)))).background? = some ⟨σ.journal, queue⟩ := by
        show σ.traffic.site.queue.map _ = _
        rw [hqueue]
        rfl
      obtain ⟨s, hrest⟩ := submission_run Submission.maxSteps (get_put hlt id _) hlog
      rw [put_withLog] at hrest
      unfold Traffic.complete Recording.complete Site.submit
      rw [hqueue]
      exact ⟨.submitting s, hrest.head hfirst⟩

/-- Completing an exchange without a break is a run. -/
theorem complete_run {guard : Guard} (hk : σ.tasks[k]? = some ⟨id, .underWay guard⟩)
    (exception : Option String) (elapsed : Time.Span) :
    ∃ phase, Run σ (({ σ with traffic := (guard.complete σ.traffic exception elapsed).2 } :
      Scene).put k id phase) := by
  have hlt := (List.getElem?_eq_some_iff.mp hk).1
  obtain ⟨pending⟩ := guard
  cases pending with
  | none =>
      refine ⟨.underWay ⟨none⟩, ?_⟩
      show Run σ (σ.put k id (.underWay ⟨none⟩))
      rw [put_self hk]
  | some inside =>
      obtain ⟨e, taps⟩ := inside
      -- the exchange is taken, its taps are closed, and its record is handed over
      have htakes := Step.takes hk exception elapsed
      have hcloses := closeTaps_run (get_put hlt id (.closing
        { e with duration := elapsed, exception := e.exception.or exception } taps))
      rw [put_put] at hcloses
      obtain ⟨phase, hhands⟩ := handover_run (get_put
        (σ := { σ with traffic := σ.traffic.closeTaps taps }) hlt id (.closing
        { e with duration := elapsed, exception := e.exception.or exception } []))
      rw [put_put] at hhands
      exact ⟨phase, (hcloses.head htakes).trans hhands⟩

end Wiretap.Scene
