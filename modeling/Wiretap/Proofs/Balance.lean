/-
  Wiretap.Proofs.Balance
  ──────────────────────
  **THE BOOKS BEHIND A SHUTDOWN.**

  A log counts in two places: its own counters, and the totals and the gauge that it reports.
  The totals grow with the counters, step by step, so what is missing in one place is missing in
  the other.  And a shutdown that stops the worker by force takes records away that nothing
  counts: the discarded ones, that were in the channel, and one whose dispatch outlives the
  worker.

      submitted  =  dispatched + dropped + in the queue + discarded + abandoned
      queued     =  in the channel + received by the worker + discarded

    • `Background.work_reports`         — the worker reports what it counts,
    • `Logging.step_balanced`           — where the records are and what is counted, in one,
    • `Closing.run_metered`             — what is reported is what is counted,
    • `Closing.balance_behind_shutdown` — what holds once a call has returned,
    • `Closing.forced_stop_unbalanced`  — a stop by force that loses two records of two.
-/
import Wiretap.Proofs.Closing

namespace Wiretap

/-! ## §1. What is reported. -/

namespace Background

variable {b b' : Background}

/-- What is reported goes with what is counted, and the gauge is set if there is a `depth`. -/
structure Reports (b b' : Background) (depth : Option Nat) : Prop where
  dispatched : b'.journal.totals.dispatched + b.queue.stats.dispatched
    = b.journal.totals.dispatched + b'.queue.stats.dispatched
  dropped : b'.journal.totals.dropped + b.queue.stats.dropped
    = b.journal.totals.dropped + b'.queue.stats.dropped
  depth : b'.journal.totals.depth = depth.or b.journal.totals.depth

/-- Nothing is reported where nothing is counted. -/
theorem Reports.of_same (htotals : b'.journal.totals = b.journal.totals)
    (hstats : b'.queue.stats = b.queue.stats) : Reports b b' none := by
  constructor
  case dispatched => rw [htotals, hstats]
  case dropped => rw [htotals, hstats]
  case depth => rw [htotals, Option.none_or]

theorem dropAll_totals (b : Background) (records : List Record) :
    (b.dropAll records).journal.totals = b.journal.totals := by
  induction records generalizing b with
  | nil => rfl
  | cons r rest ih =>
      exact (ih (b.finish r .dropped)).trans (b.journal.finish_adds r .dropped).totals

/-- The gauge that a step of the worker sets. -/
def workDepth? (b : Background) : Option Nat :=
  match b.queue.worker with
  | .received _ => some (b.queue.stats.queued - 1)
  | _ => none

/-- The worker reports each record that it takes, and each dispatch that it has waited for. -/
theorem work_reports (h : b.work = some b') : Reports b b' b.workDepth? := by
  unfold workDepth?
  cases work_worked h with
  | receives hworker hchannel hqueue hjournal =>
      rw [hworker]
      exact .of_same (by rw [hjournal]) (by rw [hqueue])
  | leaves hworker hchannel hclosed hqueue hjournal =>
      rw [hworker]
      exact .of_same (by rw [hjournal]) (by rw [hqueue])
  | prepares hworker hworker' hsteady hqueue hstate hjournal =>
      rw [hworker]
      constructor <;> simp only [hqueue, hjournal] <;> rfl
  | begins hworker hworker' hsteady hqueue hjournal =>
      rw [hworker]
      exact .of_same (by rw [hjournal, b.journal.enter_adds.totals]) (by rw [hqueue])
  | calls hworker hjob hqueue =>
      rename_i job next
      rw [hworker]
      have htotals := (b.journal.stepJob_adds job).totals
      rw [hjob] at htotals
      exact .of_same htotals (by rw [hqueue])
  | returns hworker hjob hqueue =>
      rename_i job result
      rw [hworker]
      have htotals := (b.journal.stepJob_adds job).totals
      rw [hjob] at htotals
      exact .of_same htotals (by rw [hqueue])
  | counts hworker hworker' hsteady hqueue hjournal =>
      rw [hworker]
      constructor <;> simp only [hqueue, hjournal]
      case dispatched => exact Nat.add_right_comm ..
      case dropped => rfl
      case depth => rfl
  | rests hworker hworker' hsteady hqueue hstate hjournal =>
      rw [hworker]
      exact .of_same (by rw [hjournal]) (by rw [hqueue])

/-- A dispatch that outlived its worker reports nothing. -/
theorem workDetached_reports (h : b.workDetached = some b') : Reports b b' none := by
  have hstats : b'.queue.stats = b.queue.stats := by
    obtain ⟨detached, hqueue⟩ := workDetached_queue h
    rw [hqueue]
  cases workDetached_outlived h with
  | calls hdetached hjob hqueue =>
      rename_i job next rest
      have htotals := (b.journal.stepJob_adds job).totals
      rw [hjob] at htotals
      exact .of_same htotals hstats
  | returns hdetached hjob hqueue =>
      rename_i job result rest
      have htotals := (b.journal.stepJob_adds job).totals
      rw [hjob] at htotals
      exact .of_same htotals hstats

end Background

/-- A shutdown reports nothing, nor do the records that it drops. -/
theorem Shutdown.Stopped.reports {b b' : Background} {sh sh' : Shutdown}
    (h : Stopped b b' sh sh') : b.Reports b' none := by
  cases h with
  | aborts habort =>
      obtain ⟨-, rfl⟩ := Background.abort?_eq habort
      refine .of_same (Background.dropAll_totals _ _) ?_
      rw [Background.dropAll_queue]
  | closes hb => subst hb; exact .of_same rfl rfl
  | drains hb => subst hb; exact .of_same rfl rfl
  | waits hhandle hb => subst hb; exact .of_same rfl rfl
  | skips hhandle hb => subst hb; exact .of_same rfl rfl
  | sees hworker hb => subst hb; exact .of_same rfl rfl
  | ends hb => subst hb; exact .of_same rfl rfl

/-- A submission reports its record once it is in the channel, or its drop. -/
theorem Submission.step_reports (b : Background) (s : Submission) :
    b.Reports (s.step b).2 (s.report?.map Report.depth) := by
  cases s with
  | counted r depth =>
      rcases b.queue.trySend_cases r with ⟨-, -, hsend⟩ | ⟨reason, hsend, -⟩
      · simp only [step, hsend]
        exact .of_same rfl rfl
      · simp only [step, hsend]
        exact .of_same rfl rfl
  | accepted depth =>
      constructor
      case dispatched => rfl
      case dropped => rfl
      case depth => rfl
  | uncounted r reason =>
      constructor
      case dispatched => rfl
      case dropped => exact Nat.add_right_comm ..
      case depth => rfl
  | weighed r reason total last =>
      simp only [step]
      split
      next => exact .of_same rfl rfl
      next => exact .of_same rfl rfl
  | releasing r => exact .of_same (b.journal.finish_adds r .dropped).totals rfl
  | _ => exact ⟨rfl, rfl, rfl⟩

/-! ## §2. Where the records are, and what is counted. -/

/-- A record is counted as enqueued in the step behind the one in which it was put into the
channel. -/
theorem Submission.step_enqueued (b : Background) (s : Submission) :
    (s.step b).2.queue.stats.enqueued + (s.step b).1.unsettled
      = b.queue.stats.enqueued + s.unsettled + (s.taken b).length := by
  cases s with
  | counted r depth =>
      rcases b.queue.trySend_cases r with ⟨-, -, hsend⟩ | ⟨reason, hsend, -⟩
      · simp only [step, taken, hsend]
        rfl
      · simp only [step, taken, hsend]
        rfl
  | weighed r reason total last =>
      simp only [step]
      split
      next => rfl
      next => rfl
  | _ => rfl

namespace Logging

variable {a a' : Logging} {b : Background} {n room : Nat} {records done discarded : List Record}
  {abandoned : Nat}

/-- Where each of the records is, and what is counted of them.  Both sides agree on the discarded
records, and a worker that is stopped by force abandons one dispatch at most. -/
structure Balanced (n room : Nat) (records : List Record) (a : Logging)
    (done discarded : List Record) (abandoned : Nat) : Prop where
  accounts : a.Accounts n records done discarded
  books : a.Books room discarded.length abandoned
  single : abandoned ≤ 1
  /-- Each accepted record is counted as enqueued, or is to be. -/
  tallied : a.accepted.length
    = a.log.queue.stats.enqueued + (a.submissions.map Submission.unsettled).sum

theorem step_balanced (h : a.Balanced n room records done discarded abandoned)
    (hstep : Step a a') :
    ∃ done' discarded' abandoned', a'.Balanced n room records done' discarded' abandoned' := by
  have htallied := h.tallied
  cases hstep with
  | submit hs hbusy =>
      rename_i k s
      refine ⟨done, discarded, abandoned, h.accounts.submit hs, h.books.submit hs _ _, h.single, ?_⟩
      have henqueued := s.step_enqueued a.log
      have hunsettled := sum_map_set hs (s.step a.log).1 Submission.unsettled
      show (a.accepted ++ s.taken a.log).length = _
      rw [List.length_append]
      dsimp only
      omega
  | work hb =>
      obtain ⟨done', haccounts⟩ := h.accounts.work hb
      have hqueued := h.books.queued
      have henqueued := (Background.work_counted hb (by omega)).enqueued
      exact ⟨done', discarded, abandoned, haccounts, h.books.work hb, h.single,
        htallied.trans (by rw [← henqueued])⟩
  | outlive hb =>
      obtain ⟨done', haccounts⟩ := h.accounts.outlive hb
      have hstill := Background.workDetached_still hb
      exact ⟨done', discarded, abandoned, haccounts, h.books.still hstill _, h.single,
        htallied.trans (by rw [← hstill.stats])⟩
  | shutdown expired hs =>
      rcases h.accounts.stop hs with ⟨habort, haccounts⟩ | ⟨hstill, haccounts⟩
      · refine ⟨done, _, _, haccounts, h.books.aborts _ habort, ?_, htallied.trans ?_⟩
        · cases a.log.queue.worker <;> simp [Worker.busy]
        · rw [(Background.abort?_eq habort).2, Background.dropAll_queue]
      · exact ⟨done, discarded, abandoned, haccounts, h.books.still hstill _, h.single,
          htallied.trans (by rw [← hstill.stats])⟩
  | lapse hwaiting hworker =>
      exact ⟨done, discarded, abandoned, h.accounts.lapse hwaiting hworker,
        h.books.still ⟨rfl, rfl, rfl, rfl⟩ _, h.single, htallied⟩

theorem Balanced.withState (h : a.Balanced n room records done discarded abandoned)
    (state : LoggerState) :
    (a.withState state).Balanced n room records done discarded abandoned :=
  ⟨h.accounts.withState state,
    h.books.still (b := (a.withState state).log) ⟨rfl, rfl, rfl, rfl⟩ a.shutdown, h.single,
    h.tallied⟩

theorem start_balanced {capacity warnEvery : Nat} {q : Queue}
    (hq : Queue.ofCapacity? capacity warnEvery = some q) {j : Journal} (hj : j.history = [])
    (records : List Record) :
    (start j q records).Balanced j.delegate.sinks.length (max capacity 1) records [] [] 0 := by
  refine ⟨start_accounts hq hj records, (start_books hq j records).1, Nat.zero_le 1, ?_⟩
  obtain ⟨-, hunsettled, -⟩ := Submission.sum_of_none_midway (l := records.map .fresh)
    (by simp [Submission.isMidway])
  unfold Queue.ofCapacity? at hq
  split at hq
  next => cases hq
  next =>
    cases hq
    show 0 = 0 + ((records.map Submission.fresh).map Submission.unsettled).sum
    rw [hunsettled]

end Logging

/-! ## §3. Calls and reports. -/

/-- A submission has counted its own record before it reports how many there are. -/
def Submission.CountsItself : Submission → Prop
  | .counted _ depth => 0 < depth
  | .accepted depth => 0 < depth
  | _ => True

theorem Submission.step_countsItself (b : Background) {s : Submission} (h : s.CountsItself) :
    (s.step b).1.CountsItself := by
  cases s with
  | fresh r => exact Nat.succ_pos _
  | counted r depth =>
      rcases b.queue.trySend_cases r with ⟨-, -, hsend⟩ | ⟨reason, hsend, -⟩
      · simp only [step, hsend]
        exact h
      · simp only [step, hsend]
        exact trivial
  | weighed r reason total last =>
      simp only [step]
      split <;> exact trivial
  | _ => exact trivial

/-- Where a submission does not set the gauge, it counts nothing as enqueued. -/
theorem Submission.step_unreported (b : Background) {s : Submission} (h : s.report? = none) :
    (s.step b).2.queue.stats.enqueued = b.queue.stats.enqueued := by
  cases s with
  | accepted depth => cases h
  | counted r depth =>
      rcases b.queue.trySend_cases r with ⟨-, -, hsend⟩ | ⟨reason, hsend, -⟩
      · simp only [step, hsend]
      · simp only [step, hsend]
  | weighed r reason total last =>
      simp only [step]
      split <;> rfl
  | _ => rfl

namespace Closing

variable {a a' : Closing} {lead : Shutdown} {given : Totals} {n room : Nat}
  {records done discarded : List Record} {abandoned : Nat}

/-- What is reported of a log is what it has counted since the totals were as `given`. -/
structure Metered (given : Totals) (a : Closing) : Prop where
  dispatched : a.log.journal.totals.dispatched
    = given.dispatched + a.log.queue.stats.dispatched
  dropped : a.log.journal.totals.dropped = given.dropped + a.log.queue.stats.dropped
  gauge : a.log.journal.totals.depth = (a.report.map Report.depth).or given.depth
  reported : a.report = none → a.log.queue.stats.enqueued = 0
  itself : ∀ s ∈ a.submissions, s.CountsItself
  entered : ∀ depth, a.report = some (.entered depth) → 0 < depth

/-- A step keeps what is reported, if it reports what it counts. -/
theorem Metered.step (h : a.Metered given) {b : Background} (report : Option Report)
    (hreports : a.log.Reports b (report.map Report.depth)) {submissions : List Submission}
    {calls : List Shutdown} {accepted refused : List Record} {taker : Option Nat}
    (hreported : report = none → b.queue.stats.enqueued = a.log.queue.stats.enqueued)
    (hitself : ∀ s ∈ submissions, s.CountsItself)
    (hentered : ∀ depth, report = some (.entered depth) → 0 < depth) :
    Metered given ⟨b, submissions, calls, accepted, refused, taker, report.or a.report⟩ := by
  have hdispatched := h.dispatched
  have hdropped := h.dropped
  obtain ⟨hdispatched', hdropped', hdepth⟩ := hreports
  constructor <;> dsimp only
  case dispatched => omega
  case dropped => omega
  case gauge => rw [hdepth, h.gauge, Option.map_or, Option.or_assoc]
  case reported =>
    intro hnone
    obtain ⟨rfl, hnone⟩ := Option.or_eq_none_iff.mp hnone
    exact (hreported rfl).trans (h.reported hnone)
  case itself => exact hitself
  case entered =>
    intro depth hsome
    rcases Option.or_eq_some_iff.mp hsome with hsome | ⟨-, hsome⟩
    · exact hentered depth hsome
    · exact h.entered depth hsome

/-- The worker sets the gauge to what it has left behind. -/
theorem workDepth?_eq (h : (a.seen lead).Books room discarded.length abandoned) :
    a.log.workDepth? = a.workerReport?.map Report.depth := by
  unfold Background.workDepth? workerReport?
  cases hworker : a.log.queue.worker with
  | received r =>
      have hqueued : a.log.queue.stats.queued = a.log.queue.channel.length
        + (a.submissions.map Submission.inTransit).sum + a.log.queue.worker.uncounted
        + discarded.length := h.queued
      have hnone := (h.live (by rw [show (a.seen lead).log.queue.worker = _ from hworker]; nofun)).1
      rw [hworker, hnone] at hqueued
      show some _ = some (a.log.queue.channel.length + _)
      rw [hqueued]
      rfl
  | _ => rfl

theorem step_metered (h : a.Metered given)
    (hbooks : (a.seen lead).Books room discarded.length abandoned) (hstep : Step a a') :
    a'.Metered given := by
  cases hstep with
  | submit hs hbusy =>
      rename_i k s
      have hitself := h.itself s (List.mem_of_getElem? hs)
      refine h.step s.report? (s.step_reports a.log) (Submission.step_unreported a.log)
        (fun other hmem => ?_)
        fun depth hsome => ?_
      · rcases List.mem_or_eq_of_mem_set hmem with hold | rfl
        · exact h.itself other hold
        · exact s.step_countsItself a.log hitself
      · cases s with
        | accepted depth' =>
            cases hsome
            exact hitself
        | _ => cases hsome
  | work hb =>
      have hqueued : a.log.queue.stats.queued = a.log.queue.channel.length
        + (a.submissions.map Submission.inTransit).sum + a.log.queue.worker.uncounted
        + discarded.length := hbooks.queued
      refine h.step a.workerReport? ?_
        (fun _ => (Background.work_counted hb (by omega)).enqueued) h.itself
        fun depth hsome => ?_
      · rw [← workDepth?_eq hbooks]
        exact Background.work_reports hb
      · unfold workerReport? at hsome
        split at hsome
        next => cases hsome
        next => cases hsome
  | outlive hb =>
      exact h.step none (Background.workDetached_reports hb)
        (fun _ => by rw [(Background.workDetached_still hb).stats]) h.itself nofun
  | shutdown expired hcall hs =>
      have hstopped := Shutdown.step_stopped hs
      refine h.step none hstopped.reports (fun _ => ?_) h.itself nofun
      rcases hstopped.still with habort | hstill
      · rw [(Background.abort?_eq habort).2, Background.dropAll_queue]
      · rw [hstill.stats]
  | lapse hcall hworker => exact { h with }

/-- Accounts and books stay balanced, whichever call leads. -/
theorem run_balanced {capacity warnEvery : Nat} {q : Queue}
    (hq : Queue.ofCapacity? capacity warnEvery = some q) {j : Journal} (hj : j.history = [])
    {records : List Record} {calls : Nat} (hrun : Run (start j q records calls) a) :
    ∃ lead, a.Led lead ∧ ∃ done discarded abandoned, (a.seen lead).Balanced
      j.delegate.sinks.length (max capacity 1) records done discarded abandoned :=
  run_seen (P := fun s => ∃ done discarded abandoned,
      s.Balanced j.delegate.sinks.length (max capacity 1) records done discarded abandoned)
    ⟨[], [], 0, Logging.start_balanced hq hj records⟩
    (fun _ ⟨_, _, _, h⟩ => h.accounts.guarded)
    (fun _ _ ⟨_, _, _, h⟩ hstep => Logging.step_balanced h hstep)
    (fun _ state ⟨_, _, _, h⟩ => ⟨_, _, _, h.withState state⟩) hrun

/-- **What is reported is what is counted**, after any number of steps. -/
theorem run_metered {capacity warnEvery : Nat} {q : Queue}
    (hq : Queue.ofCapacity? capacity warnEvery = some q) {j : Journal} (hj : j.history = [])
    {records : List Record} {calls : Nat} (hrun : Run (start j q records calls) a) :
    a.Metered j.totals := by
  induction hrun with
  | refl =>
      unfold Queue.ofCapacity? at hq
      split at hq
      next => cases hq
      next =>
        cases hq
        refine ⟨rfl, rfl, rfl, fun _ => rfl, fun s hmem => ?_, nofun⟩
        obtain ⟨r, -, rfl⟩ := List.mem_map.mp hmem
        exact trivial
  | tail hrun hstep ih =>
      obtain ⟨lead, -, done, discarded, abandoned, hbalanced⟩ := run_balanced hq hj hrun
      exact step_metered ih hbalanced.books hstep

/-! ## §4. Behind a shutdown. -/

/-- What the counters, the totals and the gauge of a log say while no submission is midway: of
the accepted records, `dispatched` were handed to every sink and delivered, and `discarded` were
in the channel when the worker was stopped by force; `abandoned` counts the dispatches that were
under way then.  `lead` is the call that has taken the handle of the worker. -/
structure Balance (given : Totals) (a : Closing) (lead : Shutdown)
    (dispatched discarded : List Record) (abandoned : Nat) : Prop where
  /-- Every record that was submitted is counted, unless it is still in the queue or was left
  behind. -/
  counted : a.log.queue.stats.dispatched + a.log.queue.stats.dropped
      + (a.log.queue.channel.length + a.log.queue.worker.uncounted + a.log.queue.worker.busy)
      + (discarded.length + abandoned)
    = a.submissions.countP Submission.isDone
  queued : a.log.queue.stats.queued = a.log.queue.channel.length
    + a.log.queue.worker.uncounted + discarded.length
  /-- An abandoned dispatch goes on, and is over as any other, but is never counted. -/
  handed : dispatched.length + a.log.queue.inHand.length = a.log.queue.stats.dispatched
    + (a.log.queue.worker.uncounted + a.log.queue.worker.busy) + abandoned
  single : abandoned ≤ 1
  totals : a.log.journal.totals.dispatched = given.dispatched + a.log.queue.stats.dispatched
    ∧ a.log.journal.totals.dropped = given.dropped + a.log.queue.stats.dropped
    ∧ a.log.journal.totals.depth = (a.report.map Report.depth).or given.depth
  /-- The gauge is set once a record was accepted, and is zero just where the worker was the last
  to set it and had left nothing behind, in the channel or on its way there. -/
  gauge : a.accepted ≠ [] → a.report ≠ none
    ∧ (a.log.journal.totals.depth = some 0 ↔ a.report = some (.left 0 0))
  /-- Once the taker knows what has become of the worker, nothing is in the queue. -/
  known : lead.finding.isSome →
    a.log.queue.channel.length + a.log.queue.worker.uncounted + a.log.queue.worker.busy = 0
  /-- Then the counters tell of all records just where none was left behind. -/
  exactly : lead.finding.isSome →
    (a.log.queue.stats.dispatched + a.log.queue.stats.dropped
        = a.submissions.countP Submission.isDone ∧ a.log.queue.stats.queued = 0
      ↔ discarded = [] ∧ abandoned = 0)
  drained : lead.finding = some true → discarded = [] ∧ abandoned = 0

/-- What accounts, books and reports say of a log no submission to which is midway. -/
theorem balance_of_resting (h : (a.seen lead).Balanced n room records done discarded abandoned)
    (hmetered : a.Metered given) (hresting : ∀ s ∈ a.submissions, s.isMidway = false) :
    a.Balance given lead done discarded abandoned := by
  obtain ⟨haccounts, hbooks, hsingle, htallied⟩ := h
  obtain ⟨htransit, hunsettled, hsettled⟩ := Submission.sum_of_none_midway hresting
  have hqueued : a.log.queue.stats.queued = a.log.queue.channel.length
    + (a.submissions.map Submission.inTransit).sum + a.log.queue.worker.uncounted
    + discarded.length := hbooks.queued
  have henqueued : a.log.queue.stats.enqueued + (a.submissions.map Submission.unsettled).sum
    = a.log.queue.stats.dispatched + a.log.queue.worker.busy + a.log.queue.worker.uncounted
      + a.log.queue.channel.length + (discarded.length + abandoned) := hbooks.enqueued
  have hsum : a.log.queue.stats.enqueued + a.log.queue.stats.dropped
    = (a.submissions.map Submission.settled).sum := hbooks.settled
  have htally : a.accepted.length
    = a.log.queue.stats.enqueued + (a.submissions.map Submission.unsettled).sum := htallied
  have horder : a.accepted.length = done.length + (a.log.queue.inHand.length
      + (a.log.queue.channel.length + discarded.length)) := by
    have horder : a.accepted = done
      ++ (a.log.queue.inHand ++ (a.log.queue.channel ++ discarded)) := haccounts.order
    rw [horder]
    simp only [List.length_append]
  have hcounted : a.log.queue.stats.dispatched + a.log.queue.stats.dropped
      + (a.log.queue.channel.length + a.log.queue.worker.uncounted + a.log.queue.worker.busy)
      + (discarded.length + abandoned)
    = a.submissions.countP Submission.isDone := by omega
  have hqueued' : a.log.queue.stats.queued = a.log.queue.channel.length
    + a.log.queue.worker.uncounted + discarded.length := by omega
  -- a worker that is gone has left nothing
  have hknown (hfinding : lead.finding.isSome) : a.log.queue.channel.length
      + a.log.queue.worker.uncounted + a.log.queue.worker.busy = 0 := by
    have hgone : a.log.queue.worker.IsGone := by
      obtain ⟨drained, hdrained⟩ := Option.isSome_iff_exists.mp hfinding
      cases drained with
      | true => exact Or.inl (haccounts.drained hdrained)
      | false => exact haccounts.expired hdrained
    have hempty : a.log.queue.channel = [] := (haccounts.gone hgone).1
    rw [hempty]
    rcases hgone with hworker | hworker
    · rw [hworker]
      rfl
    · rw [hworker]
      rfl
  constructor
  case counted => exact hcounted
  case queued => exact hqueued'
  case handed => omega
  case single => exact hsingle
  case totals => exact ⟨hmetered.dispatched, hmetered.dropped, hmetered.gauge⟩
  case gauge =>
    intro haccepted
    have hpos := List.length_pos_iff.mpr haccepted
    cases hreport : a.report with
    | none =>
        have hzero := hmetered.reported hreport
        omega
    | some report =>
        have hgauge := hmetered.gauge
        rw [hreport] at hgauge
        refine ⟨nofun, ?_⟩
        rw [hgauge]
        cases report with
        | entered depth =>
            have hdepth := hmetered.entered depth hreport
            simp [Report.depth]
            omega
        | left waiting inTransit => simp [Report.depth]
  case known => exact hknown
  case exactly =>
    intro hfinding
    have hnothing := hknown hfinding
    rw [← List.length_eq_zero_iff]
    omega
  case drained =>
    intro hfinding
    have hworker : a.log.queue.worker = .exited := haccounts.drained hfinding
    have hlive : a.log.queue.worker ≠ .aborted := by
      rw [hworker]
      nofun
    exact ⟨(haccounts.live hlive).2, (hbooks.live hlive).2⟩

/-- **What the counters say behind a shutdown**, whatever the capacity, the records, the sinks
and the calls, in every order of steps: counters and totals tell of every record that was
submitted, but for those that a stop by force took away. -/
theorem balance_behind_shutdown {capacity warnEvery : Nat} {q : Queue}
    (hq : Queue.ofCapacity? capacity warnEvery = some q) {j : Journal} (hj : j.history = [])
    (records : List Record) (calls : Nat) (a : Closing)
    (hrun : Run (start j q records calls) a) {k : Nat} {drained : Bool}
    (hk : a.calls[k]? = some (.ended drained))
    (hresting : ∀ s ∈ a.submissions, s.isMidway = false) :
    ∃ taker lead dispatched discarded abandoned,
      a.taker = some taker ∧ a.calls[taker]? = some lead
      ∧ (a.seen lead).Outcome j.delegate.sinks.length records dispatched discarded
      ∧ a.Balance j.totals lead dispatched discarded abandoned := by
  obtain ⟨lead, hled, dispatched, discarded, abandoned, hbalanced⟩ := run_balanced hq hj hrun
  cases hled with
  | untaken htaker hearly hall =>
      -- no call returns before the handle is taken
      exact absurd (Nat.lt_of_le_of_lt (hall _ (List.mem_of_getElem? hk)) hearly)
        (by simp [Shutdown.stage])
  | taken htaker hlead hlate hhandle halone =>
      rename_i taker
      exact ⟨taker, lead, dispatched, discarded, abandoned, htaker, hlead,
        hbalanced.accounts.outcome,
        balance_of_resting hbalanced (run_metered hq hj hrun) hresting⟩

/-- Two records were submitted, and the time to wait is over while the first is dispatched and the
second is in the channel.  The dispatch goes on to its end. -/
theorem forced_run :
    let j : Journal := ⟨⟨.ofDirectories [["b"]] [], ⟨true, .ofText "/b", 4, .both ∅⟩, .zero⟩,
      ⟨[.events], [], .idle, 0⟩, []⟩
    let r (id : String) : Record :=
      { Record.new ⟨id⟩ "GET" "/" ⟨0, 0⟩ with finalizer := some .announce }
    ∃ a, Run (start j ⟨2, 1, 0, true, [], ⟨0, 0, 0, 0, 0⟩, .idle, .waiting, true, []⟩
        [r "x", r "y"] 1) a
      ∧ a.calls = [.ended false] ∧ a.submissions = [.done, .done]
      ∧ a.accepted = [r "x", r "y"] ∧ a.log.queue = ⟨2, 1, 0, false, [], ⟨2, 0, 0, 0, 1⟩,
        .stopped, .aborted, false, []⟩
      ∧ a.report = some (.left 1 0) := by
  intro j r
  exact ⟨_, .tail (.tail (.tail (.tail (.tail (.tail (.tail (.tail (.tail (.tail (.tail (.tail
    (.tail (.tail (.tail (.tail (.tail .refl
    (.submit (k := 0) rfl nofun)) (.submit (k := 0) rfl nofun)) (.submit (k := 0) rfl nofun))
    (.submit (k := 1) rfl nofun)) (.submit (k := 1) rfl nofun)) (.submit (k := 1) rfl nofun))
    (.work rfl)) (.work rfl)) (.work rfl)) (.shutdown (k := 0) true rfl rfl))
    (.shutdown (k := 0) true rfl rfl)) (.shutdown (k := 0) true rfl rfl))
    (.shutdown (k := 0) true rfl rfl)) (.shutdown (k := 0) true rfl rfl)) (.outlive rfl))
    (.outlive rfl)) (.outlive rfl), rfl, rfl, rfl, rfl, rfl⟩

/-- The books behind that: one record was discarded, and one dispatch abandoned. -/
theorem balance_behind_forced_stop :
    let j : Journal := ⟨⟨.ofDirectories [["b"]] [], ⟨true, .ofText "/b", 4, .both ∅⟩, .zero⟩,
      ⟨[.events], [], .idle, 0⟩, []⟩
    let r (id : String) : Record :=
      { Record.new ⟨id⟩ "GET" "/" ⟨0, 0⟩ with finalizer := some .announce }
    ∃ q a lead dispatched discarded abandoned, Queue.ofCapacity? 2 1 = some q
      ∧ Run (start j q [r "x", r "y"] 1) a ∧ a.calls[0]? = some (.ended false)
      ∧ a.Balance j.totals lead dispatched discarded abandoned
      ∧ discarded.length = 1 ∧ abandoned = 1 := by
  intro j r
  obtain ⟨a, hrun, hcalls, hsubmissions, haccepted, hqueue, hreport⟩ := forced_run
  have hq : Queue.ofCapacity? 2 1
      = some ⟨2, 1, 0, true, [], ⟨0, 0, 0, 0, 0⟩, .idle, .waiting, true, []⟩ := rfl
  have hcall : a.calls[0]? = some (.ended false) := by rw [hcalls]; rfl
  obtain ⟨taker, lead, dispatched, discarded, abandoned, -, -, -, hbalance⟩ :=
    balance_behind_shutdown hq rfl _ 1 a hrun hcall
      (by rw [hsubmissions]; decide)
  have hcounted := hbalance.counted
  have hqueued := hbalance.queued
  rw [hsubmissions, hqueue] at hcounted
  rw [hqueue] at hqueued
  -- one of the two is still counted as queued, and none as dispatched or dropped
  have hdiscarded : discarded.length = 1 := by simpa [Worker.uncounted] using hqueued.symm
  have htwo : discarded.length + abandoned = 2 := by
    simpa [Worker.uncounted, Worker.busy, List.countP_cons, Submission.isDone] using hcounted
  exact ⟨_, a, lead, dispatched, discarded, abandoned, rfl, hrun, hcall, hbalance, hdiscarded,
    by omega⟩

/-- Not all is counted behind a stop by force, and what was counted is not counted off: of two
records that were submitted none is counted as dispatched or dropped, though each has ended, and
one is counted as waiting for ever. -/
theorem forced_stop_unbalanced :
    let j : Journal := ⟨⟨.ofDirectories [["b"]] [], ⟨true, .ofText "/b", 4, .both ∅⟩, .zero⟩,
      ⟨[.events], [], .idle, 0⟩, []⟩
    let r (id : String) : Record :=
      { Record.new ⟨id⟩ "GET" "/" ⟨0, 0⟩ with finalizer := some .announce }
    ∃ q a, Queue.ofCapacity? 2 1 = some q ∧ Run (start j q [r "x", r "y"] 1) a
      ∧ a.calls = [.ended false] ∧ (∀ s ∈ a.submissions, s.isMidway = false)
      ∧ a.log.queue.jobs = [] ∧ a.accepted ≠ []
      ∧ a.log.queue.stats.dispatched + a.log.queue.stats.dropped ≠ [r "x", r "y"].length
      ∧ a.log.queue.stats.queued ≠ 0 ∧ a.log.journal.totals.depth ≠ some 0
      ∧ a.log.journal.totals.dispatched + a.log.journal.totals.dropped
        ≠ j.totals.dispatched + j.totals.dropped + [r "x", r "y"].length := by
  intro j r
  obtain ⟨a, hrun, hcalls, hsubmissions, haccepted, hqueue, hreport⟩ := forced_run
  have hq : Queue.ofCapacity? 2 1
      = some ⟨2, 1, 0, true, [], ⟨0, 0, 0, 0, 0⟩, .idle, .waiting, true, []⟩ := rfl
  have hmetered := run_metered hq rfl hrun
  refine ⟨_, a, rfl, hrun, hcalls, ?_, ?_, ?_, ?_, ?_, ?_, ?_⟩
  · rw [hsubmissions]
    decide
  · rw [hqueue]
    rfl
  · rw [haccepted]
    nofun
  · rw [hqueue]
    decide
  · rw [hqueue]
    decide
  · rw [hmetered.gauge, hreport]
    decide
  · rw [hmetered.dispatched, hmetered.dropped, hqueue]
    decide

end Closing

end Wiretap
