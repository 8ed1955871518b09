/-
  Wiretap.Proofs.Completion
  ─────────────────────────
  **EVERY RUN OF THE LOG COMES TO AN END, AND THEN EVERY RECORD HAS.**

  Each step of the parties at a log leaves less to do (`Logging.rank`), so no run goes on
  forever; and where nobody can take a step, the log was shut down and no record is left in
  flight.  With the accounts of `Wiretap.Proofs.Accounts` this says what every run does:

    • `Logging.rank_lt`       — a step leaves less to do,
    • `Logging.Quiet.nothing` — where nobody has anything to do, nothing is in flight,
    • `Logging.step_closed`   — nothing is accepted once the sender was taken,
    • `Logging.run_outcome`   — what has become of the records, after any number of steps.
-/
import Mathlib.Algebra.GroupWithZero.Nat
import Wiretap.Proofs.Accounts

namespace Wiretap

/-! ## §1. What is left to do. -/

/-- The steps that a dispatch still takes. -/
def Job.weight (sinks : Nat) : Job → Nat
  | .calling _ next _ => (sinks - next) + 2
  | .finishing .. => 1

/-- The steps that the worker takes with what it has. -/
def Worker.weight (sinks : Nat) : Worker → Nat
  | .waiting => 1
  | .received _ => sinks + 7
  | .starting _ => sinks + 6
  | .dispatching job => job.weight sinks + 3
  | .returned _ => 3
  | .counted => 2
  | .exited => 0
  | .aborted => 0

/-- The steps that a queue is the cause of; a record in the channel is a whole dispatch. -/
def Queue.weight (sinks : Nat) (q : Queue) : Nat :=
  q.channel.length * (sinks + 8)
    + (q.worker.weight sinks + (q.detached.map (Job.weight sinks)).sum)

/-- The steps that a submission is the cause of, those of its record included. -/
def Submission.weight (sinks : Nat) : Submission → Nat
  | .fresh _ => sinks + 11
  | .counted _ _ => sinks + 10
  | .accepted _ => 1
  | .refused _ _ => 6
  | .uncounted _ _ => 5
  | .tallied _ _ _ => 4
  | .weighed _ _ _ _ => 3
  | .releasing _ => 2
  | .done => 0

/-- The steps that a shutdown takes. -/
def Shutdown.weight : Shutdown → Nat
  | .begun => 5
  | .closed => 4
  | .draining => 3
  | .waiting => 2
  | .ending _ => 1
  | .ended _ => 0

/-- What is left to do for all parties. -/
def Logging.rank (sinks : Nat) (a : Logging) : Nat :=
  (a.submissions.map (Submission.weight sinks)).sum
    + (a.log.queue.weight sinks + a.shutdown.weight)

/-! ## §2. A step leaves less to do. -/

/-- A step of a submission; a record that it puts into the channel weighs less there. -/
theorem Submission.step_weight (n : Nat) (b : Background) {s : Submission} (hbusy : s ≠ .done) :
    (s.step b).1.weight n + (s.step b).2.queue.weight n < s.weight n + b.queue.weight n := by
  cases s with
  | fresh r =>
      show (n + 10) + b.queue.weight n < (n + 11) + b.queue.weight n
      omega
  | counted r depth =>
      -- in the channel the record weighs less than the submission that is over
      rcases b.queue.trySend_cases r with ⟨-, -, hsend⟩ | ⟨reason, hsend, -⟩
      · simp only [step, hsend, weight, Queue.weight, List.length_append, List.length_singleton,
          Nat.add_mul]
        omega
      · simp only [step, hsend, weight]
        omega
  | accepted depth =>
      show 0 + b.queue.weight n < 1 + b.queue.weight n
      omega
  | refused r reason =>
      show 5 + b.queue.weight n < 6 + b.queue.weight n
      omega
  | uncounted r reason =>
      show 4 + b.queue.weight n < 5 + b.queue.weight n
      omega
  | tallied r reason total =>
      show 3 + b.queue.weight n < 4 + b.queue.weight n
      omega
  | weighed r reason total last =>
      have hmoved : (step b (.weighed r reason total last)).1 = .releasing r
          ∧ (step b (.weighed r reason total last)).2.queue.weight n = b.queue.weight n := by
        simp only [step]
        split
        next => exact ⟨rfl, rfl⟩
        next => exact ⟨rfl, rfl⟩
      rw [hmoved.1, hmoved.2]
      show 2 + b.queue.weight n < 3 + b.queue.weight n
      omega
  | releasing r =>
      show 0 + b.queue.weight n < 2 + b.queue.weight n
      omega
  | done => exact absurd rfl hbusy

/-- A step of a dispatch. -/
theorem Journal.stepJob_weight (j : Journal) (job : Job) :
    match (j.stepJob job).1 with
    | .inl next => next.weight j.delegate.sinks.length < job.weight j.delegate.sinks.length
    | .inr _ => 0 < job.weight j.delegate.sinks.length := by
  cases job with
  | calling r next result =>
      by_cases hnext : next < j.delegate.sinks.length
      · simp only [stepJob, if_pos hnext, Job.weight]
        omega
      · simp only [stepJob, if_neg hnext, Job.weight]
        omega
  | finishing r result => exact Nat.one_pos

namespace Background

variable {b b' : Background} {n : Nat}

/-- A step of the worker. -/
theorem work_weight (h : b.work = some b') (hsinks : b.journal.delegate.sinks.length = n) :
    b'.queue.weight n < b.queue.weight n := by
  -- where channel and detached dispatches stay, the worker alone counts
  have hsteady (hs : Steady b b') (hworker : b'.queue.worker.weight n < b.queue.worker.weight n) :
      b'.queue.weight n < b.queue.weight n := by
    unfold Queue.weight
    rw [hs.channel, hs.detached]
    omega
  cases work_worked h with
  | receives hworker hchannel hqueue hjournal =>
      simp only [Queue.weight, hqueue, hworker, hchannel, Worker.weight, List.length_cons,
        Nat.add_mul]
      omega
  | leaves hworker hchannel hclosed hqueue hjournal =>
      simp only [Queue.weight, hqueue, hworker, Worker.weight]
      omega
  | prepares hworker hworker' hs =>
      exact hsteady hs (by rw [hworker, hworker']; exact Nat.lt_add_one _)
  | begins hworker hworker' hs =>
      refine hsteady hs ?_
      rw [hworker, hworker']
      show (n - 0) + 2 + 3 < n + 6
      omega
  | calls hworker hjob hqueue =>
      rename_i job next
      have hless := b.journal.stepJob_weight job
      rw [hjob, hsinks] at hless
      simp only [Queue.weight, hqueue, hworker, Worker.weight]
      omega
  | returns hworker hjob hqueue =>
      rename_i job result
      have hless := b.journal.stepJob_weight job
      rw [hjob, hsinks] at hless
      simp only [Queue.weight, hqueue, hworker, Worker.weight]
      omega
  | counts hworker hworker' hs =>
      exact hsteady hs (by rw [hworker, hworker']; exact Nat.lt_add_one _)
  | rests hworker hworker' hs =>
      exact hsteady hs (by rw [hworker, hworker']; exact Nat.lt_add_one _)

/-- A step of a dispatch that outlived the worker. -/
theorem workDetached_weight (h : b.workDetached = some b')
    (hsinks : b.journal.delegate.sinks.length = n) : b'.queue.weight n < b.queue.weight n := by
  cases workDetached_outlived h with
  | calls hdetached hjob hqueue =>
      rename_i job next rest
      have hless := b.journal.stepJob_weight job
      rw [hjob, hsinks] at hless
      simp only [Queue.weight, hqueue, hdetached, List.map_cons, List.sum_cons]
      omega
  | returns hdetached hjob hqueue =>
      rename_i job result rest
      have hless := b.journal.stepJob_weight job
      rw [hjob, hsinks] at hless
      simp only [Queue.weight, hqueue, hdetached, List.map_cons, List.sum_cons]
      omega

end Background

/-- A step of the shutdown. -/
theorem Shutdown.step_weight (n : Nat) {b b' : Background} {expired : Bool} {sh sh' : Shutdown}
    (h : sh.step b expired = some (sh', b')) :
    b'.queue.weight n + sh'.weight < b.queue.weight n + sh.weight := by
  cases step_stopped h with
  | closes hb =>
      subst hb
      exact Nat.lt_add_one _
  | drains hb =>
      subst hb
      exact Nat.lt_add_one _
  | waits hhandle hb =>
      subst hb
      exact Nat.lt_add_one _
  | skips hhandle hb =>
      subst hb
      show b'.queue.weight n + 1 < b'.queue.weight n + 3
      omega
  | sees hworker hb =>
      subst hb
      exact Nat.lt_add_one _
  | aborts habort =>
      obtain ⟨hworker, rfl⟩ := Background.abort?_eq habort
      rw [Background.dropAll_queue]
      -- a dispatch weighs no more alone than with the worker that waits for it
      have hjobs : (b.queue.worker.jobs.map (Job.weight n)).sum ≤ b.queue.worker.weight n := by
        rcases hworker with hworker | ⟨job, hworker⟩
        · rw [hworker]
          exact Nat.zero_le 1
        · rw [hworker]
          show job.weight n + 0 ≤ job.weight n + 3
          omega
      unfold Queue.weight
      rw [List.map_append, List.sum_append]
      show 0 * (n + 8) + (0 + (_ + _)) + 1 < _ + 2
      omega
  | ends hb =>
      subst hb
      exact Nat.lt_add_one _

namespace Logging

variable {a a' : Logging} {n : Nat} {records done discarded : List Record}

/-- Putting another element at a position changes a sum by the difference. -/
theorem sum_map_set {α : Type} {l : List α} {k : Nat} {x : α} (h : l[k]? = some x) (y : α)
    (f : α → Nat) : ((l.set k y).map f).sum + f x = (l.map f).sum + f y := by
  induction l generalizing k with
  | nil => cases h
  | cons z rest ih =>
      cases k with
      | zero =>
          cases h
          simp only [List.set_cons_zero, List.map_cons, List.sum_cons]
          omega
      | succ k =>
          have hrest := ih h
          simp only [List.set_cons_succ, List.map_cons, List.sum_cons]
          omega

/-- A step of any of the parties leaves less to do. -/
theorem rank_lt (hsinks : a.log.journal.delegate.sinks.length = n) (hstep : Step a a') :
    a'.rank n < a.rank n := by
  unfold rank
  cases hstep with
  | submit hs hbusy =>
      rename_i k s
      have hsum := sum_map_set hs (s.step a.log).1 (Submission.weight n)
      have hless := Submission.step_weight n a.log hbusy
      dsimp only
      omega
  | work hb =>
      have hless := Background.work_weight hb hsinks
      dsimp only
      omega
  | outlive hb =>
      have hless := Background.workDetached_weight hb hsinks
      dsimp only
      omega
  | shutdown expired hs =>
      have hless := Shutdown.step_weight n hs
      dsimp only
      omega
  | lapse hwaiting hworker =>
      rw [hwaiting]
      dsimp only [Shutdown.weight]
      omega

/-! ## §3. Where nothing is left to do. -/

/-- Where nobody but the shutdown has anything to do, no record is in flight. -/
theorem Quiet.nothing (hq : a.Quiet) (h : a.Accounts n records done discarded) :
    a.inFlight = [] := by
  have hsubmissions : a.submissions.flatMap Submission.records = [] := by
    rw [List.flatMap_eq_nil_iff]
    intro s hmem
    rw [hq.submissions s hmem]
    rfl
  -- a dispatch that outlived the worker could take a step
  have hdetached : a.log.queue.detached = [] := by
    have houtlive := hq.outlive
    unfold Background.workDetached at houtlive
    split at houtlive
    next hnone => exact hnone
    next => split at houtlive <;> cases houtlive
  -- so could a worker with a record, or one that waits while the channel has some
  have hworker : a.log.queue.worker.records = [] ∧ a.log.queue.channel = [] := by
    have hwork := hq.work
    unfold Background.work at hwork
    split at hwork
    next hworker =>
      split at hwork
      next => cases hwork
      next hchannel => exact ⟨by rw [hworker]; rfl, hchannel⟩
    next => cases hwork
    next => cases hwork
    next => split at hwork <;> cases hwork
    next => cases hwork
    next => cases hwork
    next hworker => exact ⟨by rw [hworker]; rfl, (h.gone (Or.inl hworker)).1⟩
    next hworker => exact ⟨by rw [hworker]; rfl, (h.gone (Or.inr hworker)).1⟩
  unfold inFlight Queue.records Queue.inHand
  rw [hsubmissions, hdetached, hworker.1, hworker.2]
  rfl

/-- Where nobody can take a step, everybody is done, and the log was shut down. -/
theorem stuck_quiet (h : a.Accounts n records done discarded) (hstuck : ∀ a', ¬ Step a a') :
    a.Quiet ∧ ∃ drained, a.shutdown = .ended drained := by
  have hq : a.Quiet := by
    constructor
    case submissions =>
      intro s hmem
      by_contra hbusy
      obtain ⟨k, hs⟩ := List.getElem?_of_mem hmem
      exact hstuck _ (.submit hs hbusy)
    case work =>
      cases hwork : a.log.work with
      | none => rfl
      | some b => exact absurd (.work hwork) (hstuck _)
    case outlive =>
      cases houtlive : a.log.workDetached with
      | none => rfl
      | some b => exact absurd (.outlive houtlive) (hstuck _)
  refine ⟨hq, ?_⟩
  -- the shutdown is stuck as well, even if its time is over
  have hstop (expired : Bool) : a.shutdown.step a.log expired = none := by
    cases hs : a.shutdown.step a.log expired with
    | none => rfl
    | some stopped => exact absurd (.shutdown expired hs) (hstuck _)
  have hclosed := h.closed
  generalize a.shutdown = sh at hstop hclosed
  cases sh with
  | begun => cases hstop true
  | closed => cases hstop true
  | draining =>
      have hnone := hstop true
      simp only [Shutdown.step] at hnone
      split at hnone <;> cases hnone
  | waiting =>
      -- a worker that waits for something could be stopped now, and any other is at work or gone
      have hnone := hstop true
      have hwork := hq.work
      simp only [Shutdown.step] at hnone
      unfold Background.work at hwork
      cases hworker : a.log.queue.worker with
      | waiting => simp [hworker, Background.abort?] at hnone
      | dispatching job => simp [hworker, Background.abort?] at hnone
      | exited => simp [hworker] at hnone
      | aborted => simp [hworker] at hnone
      | received r => simp [hworker] at hwork
      | starting r => simp [hworker] at hwork
      | returned result => simp [hworker] at hwork
      | counted => simp [hworker] at hwork
  | ending drained => cases hstop true
  | ended drained => exact ⟨drained, rfl⟩

/-! ## §4. After the sender was taken. -/

/-- Nothing is accepted any more once the sender was taken. -/
theorem step_closed (hclosed : a.log.queue.accepting = false) (hstep : Step a a') :
    a'.accepted = a.accepted ∧ a'.log.queue.accepting = false := by
  cases hstep with
  | submit hs hbusy =>
      rename_i k s
      have hmoved := s.step_moved a.log
      dsimp only
      generalize (s.step a.log).1 = s' at hmoved
      generalize (s.step a.log).2 = b at hmoved ⊢
      cases hmoved with
      | steady hundecided hleaving htaken hsteady hworker =>
          rw [htaken.1]
          exact ⟨List.append_nil _, hsteady.accepting.trans hclosed⟩
      | accepts hopen htaken hb =>
          -- the channel takes no record any more
          rw [hclosed] at hopen
          cases hopen
      | refuses htaken hb =>
          rw [htaken.1, hb]
          exact ⟨List.append_nil _, hclosed⟩
      | releases hb =>
          rw [hb]
          exact ⟨List.append_nil _, hclosed⟩
  | work hb => exact ⟨rfl, (Background.work_worked hb).accepting.trans hclosed⟩
  | outlive hb => exact ⟨rfl, (Background.workDetached_outlived hb).accepting.trans hclosed⟩
  | shutdown expired hs => exact ⟨rfl, (Shutdown.step_stopped hs).closed hclosed⟩
  | lapse hwaiting hworker => exact ⟨rfl, hclosed⟩

theorem run_closed (hclosed : a.log.queue.accepting = false) (hrun : Run a a') :
    a'.accepted = a.accepted ∧ a'.log.queue.accepting = false := by
  induction hrun with
  | refl => exact ⟨rfl, hclosed⟩
  | tail hrun hstep ih =>
      obtain ⟨haccepted, hclosed'⟩ := ih
      obtain ⟨haccepted', hclosed''⟩ := step_closed hclosed' hstep
      exact ⟨haccepted'.trans haccepted, hclosed''⟩

/-! ## §5. What has become of the records. -/

/-- What has become of the records after some steps, for a number of sinks: `dispatched` are
those whose dispatch is over, `discarded` those that a shutdown has found in the channel when
its time was over. -/
structure Outcome (sinks : Nat) (records : List Record) (a : Logging)
    (dispatched discarded : List Record) : Prop where
  /-- Each record is undecided, was accepted, or was refused. -/
  submitted :
    (a.submissions.flatMap Submission.undecided ++ (a.accepted ++ a.refused)).Perm records
  /-- The accepted ones are dispatched in the order in which they were accepted. -/
  order : a.accepted = dispatched
    ++ (a.log.queue.inHand ++ (a.log.queue.channel ++ discarded))
  /-- Each dispatched record was handed to every sink once, in order, and was then delivered;
  nothing else happened to a sink but for the dispatch that is under way. -/
  marks : a.log.journal.marks
    = dispatched.flatMap (Record.marks · sinks) ++ a.log.queue.jobs.flatMap (Job.marks sinks)
  underWay : a.log.queue.jobs.length ≤ 1 ∧ ∀ job ∈ a.log.queue.jobs, job.record ∈ a.log.queue.inHand
  /-- A refused record was dropped before its submission was over, and so were the discarded
  ones before the shutdown knew. -/
  drops : (a.log.journal.drops
      ++ (a.submissions.flatMap Submission.leaving).flatMap Record.owes).Perm
    ((a.refused ++ discarded).flatMap Record.owes)
  /-- No sink sees a refused record. -/
  apart : records.Nodup → ∀ r ∈ a.refused ++ discarded, ∀ sink,
    Mark.handed sink r ∉ a.log.journal.marks
  /-- Each finalizer ran once, or it is to run for a record in flight. -/
  ended : (a.log.journal.endings ++ a.inFlight.flatMap Record.owes).Perm
    (records.flatMap Record.owes)
  quiet : a.Quiet → a.inFlight = []
  /-- A drained log has dispatched all that it accepted. -/
  drained : a.shutdown.finding = some true → a.accepted = dispatched
  /-- Once the time is over, nothing is left but a dispatch that is under way. -/
  expired : a.shutdown.finding = some false →
    a.accepted = dispatched ++ (a.log.queue.detached.map Job.record ++ discarded)
  kept : a.shutdown.finding ≠ some false → discarded = []
  /-- Nothing is accepted once the sender was taken. -/
  closed : a.shutdown ≠ .begun → ∀ a', Run a a' → a'.accepted = a.accepted

/-- The marks of records and jobs tell of these records only. -/
theorem handed_mem {n sink : Nat} {r : Record} {jobs : List Job}
    (h : Mark.handed sink r ∈ done.flatMap (Record.marks · n) ++ jobs.flatMap (Job.marks n)) :
    r ∈ done ++ jobs.map Job.record := by
  rcases List.mem_append.mp h with hmem | hmem
  · obtain ⟨r', hr', hmark⟩ := List.mem_flatMap.mp hmem
    rcases List.mem_append.mp hmark with hmark | hmark
    · obtain ⟨sink', -, heq⟩ := List.mem_map.mp hmark
      cases heq
      exact List.mem_append_left _ hr'
    · obtain ⟨o, -, heq⟩ := List.mem_map.mp hmark
      cases heq
  · obtain ⟨job, hjob, hmark⟩ := List.mem_flatMap.mp hmem
    refine List.mem_append_right _ (List.mem_map.mpr ⟨job, hjob, ?_⟩)
    cases job with
    | calling r' next result =>
        obtain ⟨sink', -, heq⟩ := List.mem_map.mp hmark
        cases heq
        rfl
    | finishing r' result =>
        obtain ⟨sink', -, heq⟩ := List.mem_map.mp hmark
        cases heq
        rfl

/-- The finalizers that dispatches have run. -/
theorem endings_of_marks {n : Nat} (done : List Record) (jobs : List Job) :
    (done.flatMap (Record.marks · n) ++ jobs.flatMap (Job.marks n)).filterMap Mark.ending?
      = done.flatMap Record.owes := by
  -- to be handed to a sink is no end
  have hhanded (k : Nat) (r : Record) :
      ((List.range k).map (Mark.handed · r)).filterMap Mark.ending? = [] := by
    rw [List.filterMap_eq_nil_iff]
    intro mark hmem
    obtain ⟨sink, -, rfl⟩ := List.mem_map.mp hmem
    rfl
  have howed (owed : List (ExchangeId × Finalizer)) :
      (owed.map fun o => Mark.delivered o.1 o.2).filterMap Mark.ending? = owed := by
    induction owed with
    | nil => rfl
    | cons o rest ih => exact congrArg (o :: ·) ih
  -- and a dispatch under way has ended nothing yet
  have hjobs : (jobs.flatMap (Job.marks n)).filterMap Mark.ending? = [] := by
    induction jobs with
    | nil => rfl
    | cons job rest ih =>
        rw [List.flatMap_cons, List.filterMap_append, ih, List.append_nil]
        cases job with
        | calling r next result => exact hhanded next r
        | finishing r result => exact hhanded n r
  rw [List.filterMap_append, hjobs, List.append_nil]
  induction done with
  | nil => rfl
  | cons r rest ih =>
      rw [List.flatMap_cons, List.filterMap_append, ih, List.flatMap_cons, Record.marks,
        List.filterMap_append, hhanded, howed]
      rfl

/-- The dispatches under way are at most one, and of records out of the channel. -/
theorem Accounts.underWay (h : a.Accounts n records done discarded) :
    a.log.queue.jobs.length ≤ 1
      ∧ ∀ job ∈ a.log.queue.jobs, job.record ∈ a.log.queue.inHand := by
  constructor
  · by_cases hworker : a.log.queue.worker = .aborted
    · unfold Queue.jobs
      rw [hworker]
      exact h.single
    · unfold Queue.jobs
      rw [(h.live hworker).1, List.append_nil]
      cases a.log.queue.worker with
      | dispatching job => exact Nat.le_refl 1
      | _ => exact Nat.zero_le 1
  · intro job hmem
    rcases List.mem_append.mp hmem with hmem | hmem
    · refine List.mem_append_left _ ?_
      cases hworker : a.log.queue.worker with
      | dispatching job' =>
          rw [hworker] at hmem
          obtain rfl := List.mem_singleton.mp hmem
          exact List.mem_singleton_self _
      | _ => rw [hworker] at hmem; cases hmem
    · exact List.mem_append_right _ (List.mem_map.mpr ⟨job, hmem, rfl⟩)

/-- Every finalizer ran once, or its record is in flight. -/
theorem Accounts.ended (h : a.Accounts n records done discarded) :
    (a.log.journal.endings ++ a.inFlight.flatMap Record.owes).Perm
      (records.flatMap Record.owes) := by
  have hendings := a.log.journal.endings_perm
  rw [h.marks, endings_of_marks] at hendings
  have hdrops := h.drops
  have howed := h.submitted.flatMap_right Record.owes
  have hrecords : (a.submissions.flatMap Submission.undecided
      ++ a.submissions.flatMap Submission.leaving).Perm
        (a.submissions.flatMap Submission.records) := List.flatMap_append_perm _ _ _
  have hheld := hrecords.flatMap_right Record.owes
  unfold inFlight Queue.records
  rw [h.order] at howed
  -- what ended is dispatched, refused or discarded; the rest is in flight
  rw [List.perm_iff_count] at hendings hdrops howed hheld ⊢
  intro o
  have he := hendings o
  have hd := hdrops o
  have ho := howed o
  have hh := hheld o
  simp only [List.count_append, List.flatMap_append] at he hd ho hh ⊢
  omega

/-- No sink has seen a record that was refused or discarded. -/
theorem Accounts.apart (h : a.Accounts n records done discarded) (hnodup : records.Nodup)
    {r : Record} (hr : r ∈ a.refused ++ discarded) (sink : Nat) :
    Mark.handed sink r ∉ a.log.journal.marks := by
  intro hmark
  rw [h.marks] at hmark
  -- a sink has seen only what is dispatched or in hand
  have hseen : r ∈ done ++ a.log.queue.inHand := by
    rcases List.mem_append.mp (handed_mem hmark) with hmem | hmem
    · exact List.mem_append_left _ hmem
    · obtain ⟨job, hjob, rfl⟩ := List.mem_map.mp hmem
      exact List.mem_append_right _ (h.underWay.2 job hjob)
  have hall := h.submitted.nodup_iff.mpr hnodup
  rw [h.order, ← List.append_assoc done] at hall
  -- and each record has one place in the accounts
  have happart := (List.nodup_append.mp hall).2.1
  rw [List.append_assoc (done ++ a.log.queue.inHand)] at happart
  refine (List.nodup_append.mp happart).2.2 r hseen r ?_ rfl
  rcases List.mem_append.mp hr with hr | hr
  · exact List.mem_append_right _ hr
  · exact List.mem_append_left _ (List.mem_append_right _ hr)

/-- What the accounts say of the records. -/
theorem Accounts.outcome (h : a.Accounts n records done discarded) :
    a.Outcome n records done discarded := by
  constructor
  case submitted => exact h.submitted
  case order => exact h.order
  case marks => exact h.marks
  case underWay => exact h.underWay
  case drops => exact h.drops
  case apart => exact fun hnodup r hr => h.apart hnodup hr
  case ended => exact h.ended
  case quiet => exact fun hq => hq.nothing h
  case drained =>
    intro hfinding
    -- a drained log has no record in hand and none in the channel
    have hworker := h.drained hfinding
    obtain ⟨hnone, hkept⟩ := h.live (by simp [hworker])
    have horder := h.order
    unfold Queue.inHand at horder
    rw [hworker, hnone, hkept, (h.gone (Or.inl hworker)).1] at horder
    exact horder.trans (List.append_nil _)
  case expired =>
    intro hfinding
    have horder := h.order
    unfold Queue.inHand at horder
    rw [(h.gone (h.expired hfinding)).1] at horder
    rcases h.expired hfinding with hworker | hworker
    · rw [hworker] at horder
      exact horder
    · rw [hworker] at horder
      exact horder
  case kept => exact fun hfinding => (h.live fun hworker => hfinding (h.forced hworker)).2
  case closed => exact fun hbegun a' hrun => (run_closed (h.closed hbegun) hrun).1

/-- A run keeps the accounts. -/
theorem run_accounts (h : a.Accounts n records done discarded) (hrun : Run a a') :
    ∃ done' discarded', a'.Accounts n records done' discarded' := by
  induction hrun with
  | refl => exact ⟨done, discarded, h⟩
  | tail hrun hstep ih =>
      obtain ⟨done', discarded', h'⟩ := ih
      exact step_accounts h' hstep

/-- **Nothing is lost and nothing is done twice**, whatever the capacity, the records and the
sinks, in every order of steps; and no run goes on forever, but all of them lead to where
everybody is done and the log was shut down. -/
theorem run_outcome {capacity warnEvery : Nat} {q : Queue}
    (hq : Queue.ofCapacity? capacity warnEvery = some q) {j : Journal} (hj : j.history = [])
    (records : List Record) (a : Logging) (hrun : Run (start j q records) a) :
    (∃ dispatched discarded,
        a.Outcome j.delegate.sinks.length records dispatched discarded)
      ∧ (∀ a', Step a a'
        → a'.rank j.delegate.sinks.length < a.rank j.delegate.sinks.length)
      ∧ ((∀ a', ¬ Step a a') → a.Quiet ∧ ∃ drained, a.shutdown = .ended drained) := by
  obtain ⟨dispatched, discarded, h⟩ := run_accounts (start_accounts hq hj records) hrun
  exact ⟨⟨dispatched, discarded, h.outcome⟩, fun a' hstep => rank_lt h.sinks hstep,
    stuck_quiet h⟩

/-- The same of two records for a queue with room for one: the first is accepted, the second
is turned away. -/
theorem run_outcome_of_two :
    let j : Journal := ⟨⟨.ofDirectories [["b"]] [], ⟨true, .ofText "/b", 4, .both ∅⟩, .zero⟩,
      ⟨[.events], [], .idle, 0⟩, []⟩
    let r (id : String) : Record :=
      { Record.new ⟨id⟩ "GET" "/" ⟨0, 0⟩ with finalizer := some .announce }
    ∃ q a, Queue.ofCapacity? 1 1 = some q ∧ Run (start j q [r "x", r "y"]) a
      ∧ a.accepted = [r "x"] ∧ a.refused = [r "y"]
      ∧ ∃ dispatched discarded, a.Outcome 1 [r "x", r "y"] dispatched discarded := by
  intro j r
  have hq : Queue.ofCapacity? 1 1
      = some ⟨1, 1, 0, true, [], ⟨0, 0, 0, 0, 0⟩, .idle, .waiting, true, []⟩ := rfl
  have hrun : ∃ a, Run (start j ⟨1, 1, 0, true, [], ⟨0, 0, 0, 0, 0⟩, .idle, .waiting, true, []⟩
      [r "x", r "y"]) a ∧ a.accepted = [r "x"] ∧ a.refused = [r "y"] :=
    ⟨_, .tail (.tail (.tail (.tail .refl (.submit (k := 0) rfl nofun))
      (.submit (k := 1) rfl nofun)) (.submit (k := 0) rfl nofun)) (.submit (k := 1) rfl nofun),
      rfl, rfl⟩
  obtain ⟨a, hrun, haccepted, hrefused⟩ := hrun
  exact ⟨_, a, hq, hrun, haccepted, hrefused, (run_outcome hq rfl _ a hrun).1⟩

end Logging

end Wiretap
