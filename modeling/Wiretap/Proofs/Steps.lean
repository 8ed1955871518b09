/-
  Wiretap.Proofs.Steps
  ────────────────────
  **WHAT A STEP OF THE LOG DOES.**

  A log in the background moves in steps of its submissions, its worker, the dispatches that
  outlived the worker, and its shutdown.  Each of them either is steady, and then touches
  neither a record nor the store, or it is one of a few that move or end a record.  This is
  said once for each party, and all that holds of runs is derived from it:

    • `Submission.step_moved`   — a submission (`Submission.Moved`),
    • `Background.work_worked`  — the worker (`Background.Worked`),
    • `Background.workDetached_outlived` — a dispatch that outlived it (`Background.Outlived`),
    • `Shutdown.step_stopped`   — a shutdown (`Shutdown.Stopped`).
-/
import Wiretap.Log.Queue
import Wiretap.Proofs.Trace

namespace Wiretap

/-! ## §1. Where records are. -/

/-- The record that a submission has not found a place for yet. -/
def Submission.undecided : Submission → List Record
  | .fresh r => [r]
  | .counted r _ => [r]
  | _ => []

/-- The record that a submission is to let go of. -/
def Submission.leaving : Submission → List Record
  | .refused r _ => [r]
  | .uncounted r _ => [r]
  | .tallied r _ _ => [r]
  | .weighed r _ _ _ => [r]
  | .releasing r => [r]
  | _ => []

/-- The records that a submission has. -/
def Submission.records (s : Submission) : List Record := s.undecided ++ s.leaving

/-- The record that the worker has. -/
def Worker.records : Worker → List Record
  | .received r => [r]
  | .starting r => [r]
  | .dispatching job => [job.record]
  | _ => []

/-- The dispatch that the worker waits for. -/
def Worker.jobs : Worker → List Job
  | .dispatching job => [job]
  | _ => []

/-- Whether the worker is gone for good. -/
def Worker.IsGone (worker : Worker) : Prop := worker = .exited ∨ worker = .aborted

namespace Queue

/-- The records that are out of the channel and not done with. -/
def inHand (q : Queue) : List Record := q.worker.records ++ q.detached.map Job.record

/-- The records that a queue has. -/
def records (q : Queue) : List Record := q.inHand ++ q.channel

/-- The dispatches that are under way. -/
def jobs (q : Queue) : List Job := q.worker.jobs ++ q.detached

end Queue

/-! ## §2. Steady steps. -/

namespace Background

variable {b b' b'' : Background}

/-- From one state to a later one, no record moved or ended, and only counters, states and
the position of the worker changed. -/
structure Steady (b b' : Background) : Prop where
  channel : b'.queue.channel = b.queue.channel
  detached : b'.queue.detached = b.queue.detached
  accepting : b'.queue.accepting = b.queue.accepting
  hasHandle : b'.queue.hasHandle = b.queue.hasHandle
  silent : b.journal.Silent b'.journal

namespace Steady

theorem refl (b : Background) : Steady b b := ⟨rfl, rfl, rfl, rfl, .refl _⟩

theorem trans (h : Steady b b') (h' : Steady b' b'') : Steady b b'' :=
  ⟨h'.channel.trans h.channel, h'.detached.trans h.detached, h'.accepting.trans h.accepting,
    h'.hasHandle.trans h.hasHandle, h.silent.trans h'.silent⟩

/-- The journal alone changed. -/
theorem of_journal {j : Journal} (hs : b.journal.Silent j) :
    Steady b { b with journal := j } := ⟨rfl, rfl, rfl, rfl, hs⟩

end Steady

theorem tally_steady (b : Background) (f : QueueStats → QueueStats) : Steady b (b.tally f) :=
  ⟨rfl, rfl, rfl, rfl, .refl _⟩

theorem move_steady (b : Background) (worker : Worker) : Steady b (b.move worker) :=
  ⟨rfl, rfl, rfl, rfl, .refl _⟩

theorem count_steady (b : Background) (f : Metrics → Metrics) :
    Steady b { b with journal := b.journal.count f } :=
  .of_journal (Journal.count_silent _ f)

theorem report_steady (b : Background) (depth : Nat) : Steady b (b.report depth) :=
  count_steady b _

/-- The state is moved where it was the one to move, and nothing else changes. -/
theorem exchangeState_eq (b : Background) (old new : LoggerState) :
    ∃ state, b.exchangeState old new = { b with queue := { b.queue with state } }
      ∧ (state = b.queue.state ∨ b.queue.state = old) := by
  unfold exchangeState
  split
  next hold => exact ⟨new, rfl, Or.inr hold⟩
  next => exact ⟨b.queue.state, rfl, Or.inl rfl⟩

end Background

/-! ## §3. Submissions. -/

/-- The records that a step of a submission puts into the channel. -/
def Submission.taken (b : Background) : Submission → List Record
  | .counted r _ => if (b.queue.trySend r).isOk then [r] else []
  | _ => []

/-- The records that a step of a submission turns away. -/
def Submission.turnedAway (b : Background) : Submission → List Record
  | .counted r _ => if (b.queue.trySend r).isOk then [] else [r]
  | _ => []

/-- What a step of a submission does. -/
inductive Submission.Moved (b b' : Background) : Submission → Submission → Prop
  /-- It counts, looks or warns. -/
  | steady {s s' : Submission} (hundecided : s'.undecided = s.undecided)
      (hleaving : s'.leaving = s.leaving) (htaken : s.taken b = [] ∧ s.turnedAway b = [])
      (hsteady : b.Steady b') (hworker : b'.queue.worker = b.queue.worker) : Moved b b' s s'
  /-- The record is put into the channel. -/
  | accepts {r : Record} {depth : Nat} (hopen : b.queue.accepting = true)
      (htaken : Submission.taken b (.counted r depth) = [r]
        ∧ Submission.turnedAway b (.counted r depth) = [])
      (hb : b' = { b with queue := { b.queue with channel := b.queue.channel ++ [r] } }) :
      Moved b b' (.counted r depth) (.accepted depth)
  /-- The record is turned away. -/
  | refuses {r : Record} {depth : Nat} {reason : RejectReason}
      (htaken : Submission.taken b (.counted r depth) = []
        ∧ Submission.turnedAway b (.counted r depth) = [r])
      (hb : b' = b) : Moved b b' (.counted r depth) (.refused r reason)
  /-- The record is let go of. -/
  | releases {r : Record} (hb : b' = b.finish r .dropped) : Moved b b' (.releasing r) .done

/-- A record is sent where there is room for it, and is refused for one of two reasons. -/
theorem Queue.trySend_cases (q : Queue) (r : Record) :
    (q.accepting = true ∧ q.channel.length < q.capacity
        ∧ q.trySend r = .ok { q with channel := q.channel ++ [r] })
      ∨ ∃ reason, q.trySend r = .error reason
        ∧ (reason = .queueFull ∧ q.capacity ≤ q.channel.length
          ∨ reason = .loggerStopped ∧ q.accepting = false) := by
  unfold trySend
  by_cases hopen : q.accepting = true
  · by_cases hroom : q.channel.length < q.capacity
    · exact Or.inl ⟨hopen, hroom, by rw [if_neg (by simp [hopen]), if_pos hroom]⟩
    · exact Or.inr ⟨.queueFull, by rw [if_neg (by simp [hopen]), if_neg hroom],
        Or.inl ⟨rfl, Nat.not_lt.mp hroom⟩⟩
  · exact Or.inr ⟨.loggerStopped, by rw [if_pos (by simp [hopen])],
      Or.inr ⟨rfl, by simpa using hopen⟩⟩

theorem Submission.step_moved (b : Background) (s : Submission) :
    Moved b (s.step b).2 s (s.step b).1 := by
  cases s with
  | fresh r =>
      have hsteady : b.Steady (step b (.fresh r)).2 := by
        simp only [step]
        exact b.tally_steady _
      exact .steady rfl rfl ⟨rfl, rfl⟩ hsteady rfl
  | counted r depth =>
      rcases b.queue.trySend_cases r with ⟨hopen, -, hsend⟩ | ⟨reason, hsend, -⟩
      · simp only [step, hsend]
        exact .accepts hopen ⟨by simp only [taken, hsend]; rfl,
          by simp only [turnedAway, hsend]; rfl⟩
          rfl
      · simp only [step, hsend]
        exact .refuses ⟨by simp only [taken, hsend]; rfl, by simp only [turnedAway, hsend]; rfl⟩ rfl
  | accepted depth =>
      have hsteady : b.Steady (step b (.accepted depth)).2 :=
        (b.tally_steady _).trans (Background.report_steady _ _)
      exact .steady rfl rfl ⟨rfl, rfl⟩ hsteady rfl
  | refused r reason =>
      have hsteady : b.Steady (step b (.refused r reason)).2 := by
        simp only [step]
        exact b.tally_steady _
      exact .steady rfl rfl ⟨rfl, rfl⟩ hsteady rfl
  | uncounted r reason =>
      have hsteady : b.Steady (step b (.uncounted r reason)).2 := by
        simp only [step]
        exact (b.tally_steady _).trans (Background.count_steady _ _)
      exact .steady rfl rfl ⟨rfl, rfl⟩ hsteady rfl
  | tallied r reason total => exact .steady rfl rfl ⟨rfl, rfl⟩ (.refl b) rfl
  | weighed r reason total last =>
      -- a warning is an event, and no mark or drop
      have hnote : b.journal.Silent (b.journal.note [.event (.dropping r.id total reason)]) := by
        refine Journal.note_silent _ fun notice hmem => ?_
        obtain rfl := List.mem_singleton.mp hmem
        exact ⟨rfl, rfl⟩
      simp only [step]
      split
      next => exact .steady rfl rfl ⟨rfl, rfl⟩ (.refl b) rfl
      next =>
        exact .steady rfl rfl ⟨rfl, rfl⟩
          ⟨rfl, rfl, rfl, rfl, hnote⟩ rfl
  | releasing r => exact .releases rfl
  | done => exact .steady rfl rfl ⟨rfl, rfl⟩ (.refl b) rfl

namespace Submission.Moved

variable {b b' : Background} {s s' : Submission}

/-- An undecided record stays one, or it is taken or turned away. -/
theorem undecided (h : Moved b b' s s') :
    s.undecided = s'.undecided ++ (s.taken b ++ s.turnedAway b) := by
  cases h with
  | steady hundecided hleaving htaken hsteady hworker =>
      rw [hundecided, htaken.1, htaken.2, List.append_nil, List.append_nil]
  | accepts hopen htaken hb =>
      rw [htaken.1, htaken.2]
      rfl
  | refuses htaken hb =>
      rw [htaken.1, htaken.2]
      rfl
  | releases hb => rfl

/-- A record that is turned away is dropped before the submission is over. -/
theorem drops (h : Moved b b' s s') :
    b'.journal.drops ++ s'.leaving.flatMap Record.owes
      = b.journal.drops ++ (s.leaving ++ s.turnedAway b).flatMap Record.owes := by
  cases h with
  | steady hundecided hleaving htaken hsteady hworker =>
      rw [hsteady.silent.drops, hleaving, htaken.2, List.append_nil]
  | accepts hopen htaken hb =>
      rw [htaken.2, hb]
      rfl
  | refuses htaken hb =>
      rw [htaken.2, hb]
      rfl
  | releases hb =>
      rename_i r
      rw [hb]
      show (b.journal.finish r .dropped).1.drops ++ [] = b.journal.drops ++ (r.owes ++ [])
      rw [(b.journal.finish_dropped r).2, List.append_nil, List.append_nil]

end Submission.Moved

/-! ## §4. The worker. -/

namespace Background

variable {b b' : Background}

/-- What a step of the worker does, to the queue and to the journal. -/
inductive Worked (b b' : Background) : Prop
  /-- The next record is taken out of the channel. -/
  | receives {r : Record} {rest : List Record} (hworker : b.queue.worker = .waiting)
      (hchannel : b.queue.channel = r :: rest)
      (hqueue : b'.queue = { b.queue with channel := rest, worker := .received r })
      (hjournal : b'.journal = b.journal)
  /-- Nobody can send any more, and nothing is left. -/
  | leaves (hworker : b.queue.worker = .waiting) (hchannel : b.queue.channel = [])
      (hclosed : b.queue.accepting = false)
      (hqueue : b'.queue = { b.queue with worker := .exited }) (hjournal : b'.journal = b.journal)
  /-- A record is counted out, and the gauge is set to what is left. -/
  | prepares {r : Record} {state : LoggerState} (hworker : b.queue.worker = .received r)
      (hworker' : b'.queue.worker = .starting r) (hsteady : Steady b b')
      (hqueue : b'.queue = { b.queue with
        worker := .starting r
        state
        stats := { b.queue.stats with queued := b.queue.stats.queued - 1 } })
      (hstate : state = b.queue.state ∨ b.queue.state = .idle)
      (hjournal : b'.journal
        = b.journal.count fun m => { m with queueDepth := some (b.queue.stats.queued - 1) })
  /-- Its dispatch begins. -/
  | begins {r : Record} (hworker : b.queue.worker = .starting r)
      (hworker' : b'.queue.worker = .dispatching (.calling r 0 .ok)) (hsteady : Steady b b')
      (hqueue : b'.queue = { b.queue with worker := .dispatching (.calling r 0 .ok) })
      (hjournal : b'.journal = b.journal.enter)
  /-- The dispatch goes on. -/
  | calls {job next : Job} (hworker : b.queue.worker = .dispatching job)
      (hjob : b.journal.stepJob job = (.inl next, b'.journal))
      (hqueue : b'.queue = { b.queue with worker := .dispatching next })
  /-- The dispatch is over. -/
  | returns {job : Job} {result : SinkResult} (hworker : b.queue.worker = .dispatching job)
      (hjob : b.journal.stepJob job = (.inr result, b'.journal))
      (hqueue : b'.queue = { b.queue with worker := .returned result })
  /-- The dispatch is counted, here and in what is reported. -/
  | counts {result : SinkResult} {failed : Nat} (hworker : b.queue.worker = .returned result)
      (hworker' : b'.queue.worker = .counted) (hsteady : Steady b b')
      (hqueue : b'.queue = { b.queue with
        worker := .counted
        stats := { b.queue.stats with
          dispatched := b.queue.stats.dispatched + 1
          failed } })
      (hjournal : b'.journal = b.journal.count fun m => { m with dispatched := m.dispatched + 1 })
  /-- The worker is ready for the next record. -/
  | rests {state : LoggerState} (hworker : b.queue.worker = .counted)
      (hworker' : b'.queue.worker = .waiting) (hsteady : Steady b b')
      (hqueue : b'.queue = { b.queue with worker := .waiting, state })
      (hstate : state = b.queue.state ∨ b.queue.state = .dispatching)
      (hjournal : b'.journal = b.journal)

theorem work_worked (h : b.work = some b') : Worked b b' := by
  unfold work at h
  split at h
  next hworker =>
    split at h
    next r rest hchannel =>
      cases h
      exact .receives hworker hchannel rfl rfl
    next hchannel =>
      split at h
      next => cases h
      next hclosed =>
        cases h
        exact .leaves hworker hchannel (by simpa using hclosed) rfl rfl
  next r hworker =>
    cases h
    obtain ⟨state, heq, hstate⟩ := exchangeState_eq
      ((b.tally fun s => { s with queued := s.queued - 1 }).report (b.queue.stats.queued - 1))
      .idle .dispatching
    have hsilent := b.journal.count_silent fun m =>
      { m with queueDepth := some (b.queue.stats.queued - 1) }
    rw [heq]
    exact .prepares hworker rfl ⟨rfl, rfl, rfl, rfl, hsilent⟩ rfl hstate rfl
  next r hworker =>
    cases h
    exact .begins hworker rfl ⟨rfl, rfl, rfl, rfl, b.journal.enter_silent⟩ rfl rfl
  next job hworker =>
    split at h
    next next journal hjob =>
      cases h
      exact .calls hworker hjob rfl
    next result journal hjob =>
      cases h
      exact .returns hworker hjob rfl
  next result hworker =>
    cases h
    have hsilent := b.journal.count_silent fun m => { m with dispatched := m.dispatched + 1 }
    exact .counts hworker rfl ⟨rfl, rfl, rfl, rfl, hsilent⟩ rfl rfl
  next hworker =>
    cases h
    obtain ⟨state, heq, hstate⟩ := exchangeState_eq b .dispatching .idle
    split
    next =>
      rw [heq]
      exact .rests hworker rfl ⟨rfl, rfl, rfl, rfl, .refl _⟩ rfl hstate rfl
    next => exact .rests hworker rfl (move_steady b _) rfl (Or.inl rfl) rfl
  next => cases h
  next => cases h

/-- The worker neither takes the sender nor gives it back. -/
theorem Worked.accepting (h : Worked b b') : b'.queue.accepting = b.queue.accepting := by
  cases h with
  | receives hworker hchannel hqueue hjournal => rw [hqueue]
  | leaves hworker hchannel hclosed hqueue hjournal => rw [hqueue]
  | prepares hworker hworker' hsteady => exact hsteady.accepting
  | begins hworker hworker' hsteady => exact hsteady.accepting
  | calls hworker hjob hqueue => rw [hqueue]
  | returns hworker hjob hqueue => rw [hqueue]
  | counts hworker hworker' hsteady => exact hsteady.accepting
  | rests hworker hworker' hsteady => exact hsteady.accepting

/-- What a step of a dispatch that outlived its worker does. -/
inductive Outlived (b b' : Background) : Prop
  | calls {job next : Job} {rest : List Job} (hdetached : b.queue.detached = job :: rest)
      (hjob : b.journal.stepJob job = (.inl next, b'.journal))
      (hqueue : b'.queue = { b.queue with detached := next :: rest })
  | returns {job : Job} {result : SinkResult} {rest : List Job}
      (hdetached : b.queue.detached = job :: rest)
      (hjob : b.journal.stepJob job = (.inr result, b'.journal))
      (hqueue : b'.queue = { b.queue with detached := rest })

theorem workDetached_outlived (h : b.workDetached = some b') : Outlived b b' := by
  unfold workDetached at h
  split at h
  next => cases h
  next job rest hdetached =>
    split at h
    next next journal hjob =>
      cases h
      exact .calls hdetached hjob rfl
    next result journal hjob =>
      cases h
      exact .returns hdetached hjob rfl

theorem Outlived.accepting (h : Outlived b b') : b'.queue.accepting = b.queue.accepting := by
  cases h with
  | calls hdetached hjob hqueue => rw [hqueue]
  | returns hdetached hjob hqueue => rw [hqueue]

/-! ## §5. Shutdown. -/

/-- With several records ended as dropped. -/
def dropAll (b : Background) (records : List Record) : Background :=
  records.foldl (fun b r => b.finish r .dropped) b

theorem dropAll_queue (b : Background) (records : List Record) :
    (b.dropAll records).queue = b.queue := by
  induction records generalizing b with
  | nil => rfl
  | cons r rest ih => exact ih (b.finish r .dropped)

theorem dropAll_journal (b : Background) (records : List Record) :
    (b.dropAll records).journal.marks = b.journal.marks
      ∧ (b.dropAll records).journal.drops = b.journal.drops ++ records.flatMap Record.owes
      ∧ (b.dropAll records).journal.delegate = b.journal.delegate := by
  induction records generalizing b with
  | nil => exact ⟨rfl, (List.append_nil _).symm, rfl⟩
  | cons r rest ih =>
      -- by induction on the records, from the journal in which the first has ended
      obtain ⟨hmarks, hdrops, hdelegate⟩ := ih (b.finish r .dropped)
      obtain ⟨hmarks₁, hdrops₁⟩ := b.journal.finish_dropped r
      refine ⟨hmarks.trans hmarks₁, ?_, hdelegate.trans (b.journal.finish_delegate r .dropped)⟩
      show ((b.finish r .dropped).dropAll rest).journal.drops = _
      rw [hdrops, List.flatMap_cons, ← List.append_assoc]
      exact congrArg (· ++ rest.flatMap Record.owes) hdrops₁

/-- What is left in the channel when the worker is stopped by force is dropped. -/
theorem abort?_eq (h : b.abort? = some b') :
    (b.queue.worker = .waiting ∨ ∃ job, b.queue.worker = .dispatching job)
      ∧ b' = dropAll { b with queue := { b.queue with
          channel := [], worker := .aborted, detached := b.queue.detached ++ b.queue.worker.jobs } }
        b.queue.channel := by
  unfold abort? at h
  split at h
  next hworker =>
    cases h
    refine ⟨Or.inl hworker, ?_⟩
    rw [hworker]
    simp only [Worker.jobs, List.append_nil]
    rfl
  next job hworker =>
    cases h
    refine ⟨Or.inr ⟨job, hworker⟩, ?_⟩
    rw [hworker]
    rfl
  next => cases h

/-- Where the worker can be stopped by force, the only record that it has out of the channel
is that of a dispatch. -/
theorem abort?_records (h : b.abort? = some b') :
    ¬ b.queue.worker.IsGone
      ∧ b.queue.worker.jobs.map Job.record = b.queue.worker.records
      ∧ b.queue.worker.jobs.length ≤ 1 := by
  obtain ⟨hworker, -⟩ := abort?_eq h
  rcases hworker with hworker | ⟨job, hworker⟩
  · rw [hworker]
    exact ⟨by simp [Worker.IsGone], rfl, Nat.zero_le 1⟩
  · rw [hworker]
    exact ⟨by simp [Worker.IsGone], rfl, Nat.le_refl 1⟩

/-- The counters are as before, and so are the channel and the worker. -/
structure Still (b b' : Background) : Prop where
  capacity : b'.queue.capacity = b.queue.capacity
  stats : b'.queue.stats = b.queue.stats
  channel : b'.queue.channel = b.queue.channel
  worker : b'.queue.worker = b.queue.worker

end Background

/-- What a step of a shutdown does. -/
inductive Shutdown.Stopped (b b' : Background) : Shutdown → Shutdown → Prop
  /-- The sender is taken. -/
  | closes (hb : b' = { b with queue := { b.queue with accepting := false } }) :
      Stopped b b' .begun .closed
  | drains (hb : b' = { b with queue := { b.queue with state := .draining } }) :
      Stopped b b' .closed .draining
  /-- The handle of the worker is taken. -/
  | waits (hhandle : b.queue.hasHandle = true)
      (hb : b' = { b with queue := { b.queue with hasHandle := false } }) :
      Stopped b b' .draining .waiting
  | skips (hhandle : b.queue.hasHandle = false) (hb : b' = b) :
      Stopped b b' .draining (.ending true)
  /-- The worker is gone. -/
  | sees (hworker : b.queue.worker = .exited ∨ b.queue.worker = .aborted) (hb : b' = b) :
      Stopped b b' .waiting (.ending true)
  /-- The time to wait is over. -/
  | aborts (habort : b.abort? = some b') : Stopped b b' .waiting (.ending false)
  | ends {drained : Bool} (hb : b' = { b with queue := { b.queue with state := .stopped } }) :
      Stopped b b' (.ending drained) (.ended drained)

theorem Shutdown.step_stopped {b b' : Background} {expired : Bool} {sh sh' : Shutdown}
    (h : sh.step b expired = some (sh', b')) : Stopped b b' sh sh' := by
  cases sh with
  | begun =>
      cases h
      exact .closes rfl
  | closed =>
      cases h
      exact .drains rfl
  | draining =>
      simp only [step] at h
      split at h
      next hhandle =>
        cases h
        exact .waits hhandle rfl
      next hhandle =>
        cases h
        exact .skips (by simpa using hhandle) rfl
  | waiting =>
      simp only [step] at h
      split at h
      next hworker =>
        cases h
        exact .sees (Or.inl hworker) rfl
      next hworker =>
        cases h
        exact .sees (Or.inr hworker) rfl
      next =>
        split at h
        next =>
          obtain ⟨b₁, habort, heq⟩ := Option.map_eq_some_iff.mp h
          cases heq
          exact .aborts habort
        next => cases h
  | ending drained =>
      cases h
      exact .ends rfl
  | ended drained => cases h

/-- A shutdown counts nothing, and touches the channel and the worker only where it stops the
worker by force. -/
theorem Shutdown.Stopped.still {b b' : Background} {sh sh' : Shutdown}
    (h : Stopped b b' sh sh') : b.abort? = some b' ∨ b.Still b' := by
  cases h with
  | aborts habort => exact Or.inl habort
  | closes hb => subst hb; exact Or.inr ⟨rfl, rfl, rfl, rfl⟩
  | drains hb => subst hb; exact Or.inr ⟨rfl, rfl, rfl, rfl⟩
  | waits hhandle hb => subst hb; exact Or.inr ⟨rfl, rfl, rfl, rfl⟩
  | skips hhandle hb => subst hb; exact Or.inr ⟨rfl, rfl, rfl, rfl⟩
  | sees hworker hb => subst hb; exact Or.inr ⟨rfl, rfl, rfl, rfl⟩
  | ends hb => subst hb; exact Or.inr ⟨rfl, rfl, rfl, rfl⟩

/-- A shutdown does not give the sender back. -/
theorem Shutdown.Stopped.closed {b b' : Background} {sh sh' : Shutdown}
    (h : Stopped b b' sh sh') (hclosed : b.queue.accepting = false) :
    b'.queue.accepting = false := by
  cases h with
  | closes hb => rw [hb]
  | drains hb => rw [hb]; exact hclosed
  | waits hhandle hb => rw [hb]; exact hclosed
  | skips hhandle hb => rw [hb]; exact hclosed
  | sees hworker hb => rw [hb]; exact hclosed
  | aborts habort =>
      rw [(Background.abort?_eq habort).2, Background.dropAll_queue]
      exact hclosed
  | ends hb => rw [hb]; exact hclosed

end Wiretap
