/-
  Wiretap.Proofs.Receipts
  ───────────────────────
  **HOW A LOG IS SEEN TO TAKE A RECORD.**

  Who looks at a log sees what has happened, and the queue if there is one.  From these he can
  tell that one record came in and no other (`Site.Receives`): every sink was called with it and
  it ended, or it stands in the queue behind those before it, or it was turned away and ended as
  dropped.  An exchange is handed to the log when its taps are closed and the log takes a record
  of it (`Traffic.Concludes`):

    • `Journal.submit_receives`    — a log that works at once,
    • `Background.submit_receives` — a log in the background,
    • `Site.submit_receives`       — any log,
    • `Traffic.conclude_concludes` — an exchange that is over.
-/
import Wiretap.Exchange.Guard
import Wiretap.Proofs.Handovers
import Wiretap.Proofs.Steps

namespace Wiretap

/-! ## §1. What a log shows. -/

/-- What can be seen of a log: what has happened, and its queue. -/
def Site.log (s : Site) : List Notice × Option Queue := (s.journal.history, s.queue)

/-- From one state of a log to a later one it took a record, once, and nothing else happened. -/
inductive Site.Receives (s s' : Site) (r : Record) : Prop
  /-- Every sink is called with the record, every listener hears the result, and it ends. -/
  | logs {finalizer : Finalizer} {result : SinkResult} (hqueue : s.queue = none)
      (hrunning : s.journal.delegate.state ≠ .stopped) (hfinalizer : r.finalizer = some finalizer)
      (hresult : result.errors = (handovers r s.journal.store.disk
        s.journal.delegate.sinks).flatMap (·.errors r))
      (hlog : s'.log = (s.journal.history
        ++ noticesOf r 0 (handovers r s.journal.store.disk s.journal.delegate.sinks)
        ++ s.journal.delegate.listeners.map (.heard · r.id result)
        ++ [.finished r.id finalizer (.delivered result)], none)) : Receives s s' r
  /-- The logger was stopped, and the record ends as dropped. -/
  | refuses {finalizer : Finalizer} (hqueue : s.queue = none)
      (hstopped : s.journal.delegate.state = .stopped) (hfinalizer : r.finalizer = some finalizer)
      (hlog : s'.log = (s.journal.history ++ [.finished r.id finalizer .dropped], none)) :
      Receives s s' r
  /-- The record stands in the queue, behind those before it, and is counted. -/
  | queues {q : Queue} (hqueue : s.queue = some q) (hopen : q.accepting = true)
      (hroom : q.channel.length < q.capacity)
      (hlog : s'.log = (s.journal.history, some { q with
        channel := q.channel ++ [r]
        stats := { q.stats with
          enqueued := q.stats.enqueued + 1, queued := q.stats.queued + 1 } })) :
      Receives s s' r
  /-- The queue is full or takes nothing any more: the drop is counted, maybe it is warned of,
  and the record ends as dropped. -/
  | drops {q : Queue} {finalizer : Finalizer} {last : Nat} {warned : List Notice}
      (hqueue : s.queue = some q)
      (hshut : q.accepting = false ∨ q.capacity ≤ q.channel.length)
      (hfinalizer : r.finalizer = some finalizer)
      (hwarned : ∀ notice ∈ warned, ∃ total reason, notice = .event (.dropping r.id total reason))
      (hlog : s'.log = (s.journal.history ++ warned ++ [.finished r.id finalizer .dropped],
        some { q with
          lastWarned := last
          stats := { q.stats with dropped := q.stats.dropped + 1 } })) :
      Receives s s' r

/-! ## §2. Submitting a record. -/

/-- A log that works at once is through with a record before it returns. -/
theorem Journal.submit_receives (j : Journal) {r : Record} {finalizer : Finalizer}
    (h : r.finalizer = some finalizer) : Site.Receives ⟨j, none⟩ ⟨j.submit r, none⟩ r := by
  by_cases hstopped : j.delegate.state = .stopped
  · refine .refuses rfl hstopped h ?_
    show ((j.submit r).history, none) = _
    unfold submit
    rw [if_pos hstopped, (finish_adds _ r .dropped).history, r.endNotices_of_some h]
    rfl
  · obtain ⟨hhistory, herrors, -⟩ := j.dispatch_calls r
    refine .logs rfl hstopped h herrors ?_
    show ((j.submit r).history, none) = _
    unfold submit
    rw [if_neg hstopped]
    dsimp only
    rw [(finish_adds _ r _).history, r.endNotices_of_some h, ← hhistory]
    rfl

namespace Background

variable {b : Background} {r : Record}

/-- The steps of a submission for which there is room. -/
theorem submit_of_room (hopen : b.queue.accepting = true)
    (hroom : b.queue.channel.length < b.queue.capacity) (r : Record) :
    (b.submit r).journal.history = b.journal.history
      ∧ (b.submit r).queue = { b.queue with
        channel := b.queue.channel ++ [r]
        stats := { b.queue.stats with
          enqueued := b.queue.stats.enqueued + 1, queued := b.queue.stats.queued + 1 } } := by
  have hsend (stats : QueueStats) : Queue.trySend { b.queue with stats } r
      = .ok { b.queue with stats, channel := b.queue.channel ++ [r] } := by
    simp only [Queue.trySend, hopen, Bool.not_true, Bool.false_eq_true, if_false, if_pos hroom]
  simp only [submit, Submission.maxSteps, Submission.run, Submission.step, tally, hsend]
  exact ⟨rfl, rfl⟩

/-- The last steps of a submission that was turned away: maybe it warns, and then its record
ends. -/
theorem run_tallied (b : Background) (r : Record) (reason : RejectReason) (total : Nat) :
    ∃ warned last,
      (∀ notice ∈ warned, ∃ total reason, notice = Notice.event (.dropping r.id total reason))
      ∧ (Submission.run 3 (.tallied r reason total) b).journal.history
        = b.journal.history ++ warned ++ r.endNotices .dropped
      ∧ (Submission.run 3 (.tallied r reason total) b).queue
        = { b.queue with lastWarned := last } := by
  have hends (b' : Background) (h : (Submission.weighed r reason total b.queue.lastWarned).step b
      = (.releasing r, b')) :
      Submission.run 3 (.tallied r reason total) b = b'.finish r .dropped := by
    show Submission.run 1 ((Submission.weighed r reason total b.queue.lastWarned).step b).1
      ((Submission.weighed r reason total b.queue.lastWarned).step b).2 = _
    rw [h]
    rfl
  by_cases hquiet : (b.queue.isQuiet total b.queue.lastWarned
      || decide (b.queue.lastWarned ≠ b.queue.lastWarned)) = true
  · rw [hends b (by simp only [Submission.step, if_pos hquiet])]
    refine ⟨[], b.queue.lastWarned, fun _ hmem => absurd hmem List.not_mem_nil, ?_, rfl⟩
    rw [List.append_nil]
    exact (b.journal.finish_adds r .dropped).history
  · rw [hends ⟨b.journal.note [.event (.dropping r.id total reason)],
      { b.queue with lastWarned := total }⟩ (by simp only [Submission.step, if_neg hquiet])]
    refine ⟨[.event (.dropping r.id total reason)], total, fun notice hmem => ?_, ?_, rfl⟩
    · exact ⟨total, reason, List.mem_singleton.mp hmem⟩
    · exact (Journal.finish_adds _ r .dropped).history

/-- A submission that is turned away counts its drop, and its record ends. -/
theorem submit_of_shut
    (hshut : b.queue.accepting = false ∨ b.queue.capacity ≤ b.queue.channel.length)
    (r : Record) :
    ∃ warned last,
      (∀ notice ∈ warned, ∃ total reason, notice = Notice.event (.dropping r.id total reason))
      ∧ (b.submit r).journal.history = b.journal.history ++ warned ++ r.endNotices .dropped
      ∧ (b.submit r).queue = { b.queue with
        lastWarned := last
        stats := { b.queue.stats with dropped := b.queue.stats.dropped + 1 } } := by
  obtain ⟨reason, hsend⟩ : ∃ reason, ∀ stats : QueueStats,
      Queue.trySend { b.queue with stats } r = .error reason := by
    unfold Queue.trySend
    by_cases hopen : b.queue.accepting = true
    · have hfull : b.queue.capacity ≤ b.queue.channel.length :=
        hshut.resolve_left (by simp [hopen])
      exact ⟨.queueFull, fun stats => by simp [hopen, Nat.not_lt.mpr hfull]⟩
    · exact ⟨.loggerStopped, fun stats => by simp [hopen]⟩
  -- up to the number of the drop, nothing else is at stake
  have hrun : b.submit r = Submission.run 3 (.tallied r reason (b.queue.stats.dropped + 1))
      { journal := b.journal.count fun m => { m with dropped := m.dropped + 1 }
        queue := { b.queue with
          stats := { b.queue.stats with dropped := b.queue.stats.dropped + 1 } } } := by
    simp only [submit, Submission.maxSteps, Submission.run, Submission.step, tally, hsend,
      Nat.add_sub_cancel]
  rw [hrun]
  exact run_tallied _ r reason _

/-- A log in the background queues a record or turns it away. -/
theorem submit_receives (b : Background) {finalizer : Finalizer}
    (h : r.finalizer = some finalizer) :
    Site.Receives ⟨b.journal, some b.queue⟩ ⟨(b.submit r).journal, some (b.submit r).queue⟩ r := by
  by_cases hroom : b.queue.accepting = true ∧ b.queue.channel.length < b.queue.capacity
  · obtain ⟨hhistory, hqueue⟩ := submit_of_room hroom.1 hroom.2 r
    exact .queues rfl hroom.1 hroom.2 (Prod.ext hhistory (congrArg some hqueue))
  · have hshut : b.queue.accepting = false ∨ b.queue.capacity ≤ b.queue.channel.length := by
      rw [← Bool.not_eq_true, ← Nat.not_lt]
      exact Decidable.not_and_iff_not_or_not.mp hroom
    obtain ⟨warned, last, hwarned, hhistory, hqueue⟩ := submit_of_shut hshut r
    rw [r.endNotices_of_some h] at hhistory
    exact .drops rfl hshut h hwarned (Prod.ext hhistory (congrArg some hqueue))

end Background

/-- **A log to which a record is submitted is seen to take it, once.** -/
theorem Site.submit_receives (s : Site) {r : Record} {finalizer : Finalizer}
    (h : r.finalizer = some finalizer) : s.Receives (s.submit r) r := by
  obtain ⟨journal, queue⟩ := s
  cases queue with
  | none => exact journal.submit_receives h
  | some queue => exact Background.submit_receives ⟨journal, queue⟩ h

/-! ## §3. Handing over an exchange. -/

/-- What a record tells of an exchange that is over after so long, for a reason unless one was
known before. -/
structure Record.TellsOf (r : Record) (e : CompletedExchange) (elapsed : Time.Span)
    (exception : Option String) : Prop where
  id : r.id = e.id
  method : r.method = e.method
  uri : r.uri = e.uri
  route : r.route = e.route
  status : r.status = e.status
  started : r.started = e.started
  remote : r.remote = e.remote
  user : r.user = e.user
  duration : r.duration = elapsed
  /-- A reason that was known before is kept. -/
  exception : r.exception = e.exception.or exception

/-- An exchange that is over, for a reason unless one was known already. -/
def CompletedExchange.over (e : CompletedExchange) (elapsed : Time.Span)
    (exception : Option String) : CompletedExchange :=
  { e with duration := elapsed, exception := e.exception.or exception }

namespace Traffic

/-- From one state of the traffic to a later one an exchange was handed to the log: its taps are
closed and all others are as they were, and the log took a record. -/
structure Concludes (t t' : Traffic) (taps : List Nat) (r : Record) : Prop where
  recording : t'.recording = t.recording
  taps : ∀ k : Nat, t'.taps[k]?
    = t.taps[k]?.map fun tap => if k ∈ taps then { tap with closed := true } else tap
  site : t.site.Receives t'.site r

/-- Closing some taps closes them, and does nothing else. -/
theorem closeTaps_eq (t : Traffic) (numbers : List Nat) :
    (t.closeTaps numbers).site = t.site ∧ (t.closeTaps numbers).recording = t.recording
      ∧ ∀ k : Nat, (t.closeTaps numbers).taps[k]? = t.taps[k]?.map fun tap =>
        if k ∈ numbers then { tap with closed := true } else tap := by
  induction numbers generalizing t with
  | nil => exact ⟨rfl, rfl, fun k => by simp [closeTaps]⟩
  | cons number rest ih =>
      -- by induction on the numbers, from where the first is closed
      obtain ⟨hsite, hrecording, htaps⟩ := ih (t.closeTap number)
      refine ⟨hsite, hrecording, fun k => (htaps k).trans ?_⟩
      show ((t.taps.modify number Tap.close)[k]?).map _ = _
      rw [List.getElem?_modify, Option.map_eq_map, Option.map_map]
      congr 1
      funext tap
      by_cases hk : number = k
      · subst hk
        simp [Tap.close]
      · simp [hk, Ne.symm hk]

/-- The traffic once an exchange is over: its taps are closed, and then it is handed to the
log. -/
def conclude (t : Traffic) (e : CompletedExchange) (taps : List Nat) : Traffic :=
  (t.closeTaps taps).complete e

/-- **An exchange that is over is handed to the log, once**, and the record tells of it. -/
theorem conclude_concludes (t : Traffic) (e : CompletedExchange) (taps : List Nat)
    (elapsed : Time.Span) (exception : Option String) :
    ∃ record, t.Concludes (t.conclude (e.over elapsed exception) taps) taps record
      ∧ record.TellsOf e elapsed exception := by
  obtain ⟨hsite, hrecording, htaps⟩ := t.closeTaps_eq taps
  refine ⟨t.recording.assemble t.site.journal.store (e.over elapsed exception),
    ⟨hrecording, htaps, ?_⟩, ⟨rfl, rfl, rfl, rfl, rfl, rfl, rfl, rfl, rfl, rfl⟩⟩
  show t.site.Receives ((t.closeTaps taps).recording.complete (t.closeTaps taps).site _) _
  rw [hsite, hrecording]
  exact t.site.submit_receives rfl

end Traffic

end Wiretap
