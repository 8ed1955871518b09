/-
  Wiretap.Proofs.Counters
  ───────────────────────
  **THE COUNTERS OF A LOG ADD UP.**

  A submission is counted before its record is sent, and the record is counted off after the
  worker has received it, so at most moments the counters of a queue are ahead of what they
  count.  By how much is known from where each party is: every half-finished step has a share in
  the sums below, and every step moves a share from one side to the other.

      queued               =  in the channel + submissions in transit + received by the worker
      enqueued + unsettled =  dispatched + with the worker + in the channel
      enqueued + dropped   =  submissions that are settled

    • `Submission.step_counted`    — a step of a submission,
    • `Background.work_counted`    — a step of the worker,
    • `Logging.step_course`        — what has become of sender and worker (`Logging.Course`),
    • `Logging.step_books`         — what every step keeps of the counters (`Logging.Books`),
    • `Logging.counters_reconcile` — what holds after any number of steps.
-/
import Mathlib.Algebra.Order.BigOperators.Group.List
import Mathlib.Algebra.Order.Group.Nat
import Wiretap.Proofs.Completion

namespace Wiretap

/-! ## §1. What is half done. -/

/-- A submission is counted as queued, and its record is not in the channel: it was not sent
yet, or it was refused and is not counted off yet. -/
def Submission.inTransit : Submission → Nat
  | .counted _ _ => 1
  | .refused _ _ => 1
  | _ => 0

/-- A record is in the channel, and is not counted as enqueued yet. -/
def Submission.unsettled : Submission → Nat
  | .accepted _ => 1
  | _ => 0

/-- A submission is counted as enqueued or as dropped. -/
def Submission.settled : Submission → Nat
  | .tallied _ _ _ => 1
  | .weighed _ _ _ _ => 1
  | .releasing _ => 1
  | .done => 1
  | _ => 0

/-- Whether a submission has begun and is not over. -/
def Submission.isMidway : Submission → Bool
  | .fresh _ => false
  | .done => false
  | _ => true

def Submission.isDone : Submission → Bool
  | .done => true
  | _ => false

/-- The steps that a submission takes at most until it is over. -/
def Submission.stepsLeft : Submission → Nat
  | .fresh _ => 7
  | .counted _ _ => 6
  | .accepted _ => 1
  | .refused _ _ => 5
  | .uncounted _ _ => 4
  | .tallied _ _ _ => 3
  | .weighed _ _ _ _ => 2
  | .releasing _ => 1
  | .done => 0

/-- The worker has received a record that is not counted off yet. -/
def Worker.uncounted : Worker → Nat
  | .received _ => 1
  | _ => 0

/-- The worker has counted off a record that is not counted as dispatched yet. -/
def Worker.busy : Worker → Nat
  | .starting _ => 1
  | .dispatching _ => 1
  | .returned _ => 1
  | _ => 0

namespace Submission

/-- The shares of submissions none of which is midway. -/
theorem sum_of_none_midway {l : List Submission} (h : ∀ s ∈ l, s.isMidway = false) :
    (l.map inTransit).sum = 0 ∧ (l.map unsettled).sum = 0
      ∧ (l.map settled).sum = l.countP isDone := by
  induction l with
  | nil => exact ⟨rfl, rfl, rfl⟩
  | cons s rest ih =>
      obtain ⟨htransit, hunsettled, hsettled⟩ := ih fun s hmem => h s (List.mem_cons_of_mem _ hmem)
      have hs := h s List.mem_cons_self
      simp only [List.map_cons, List.sum_cons, List.countP_cons, htransit, hunsettled, hsettled]
      cases s with
      | fresh r => exact ⟨rfl, rfl, Nat.add_comm ..⟩
      | done => exact ⟨rfl, rfl, Nat.add_comm ..⟩
      | _ => cases hs

/-- The share of one submission is no more than that of all. -/
theorem share_le {l : List Submission} {s : Submission} (hs : s ∈ l) (f : Submission → Nat) :
    f s ≤ (l.map f).sum := List.le_sum_of_mem (List.mem_map_of_mem hs)

end Submission

/-! ## §2. Steps and counters. -/

/-- What a step of a submission does to the counters. -/
structure Submission.Counted (b b' : Background) (s s' : Submission) : Prop where
  capacity : b'.queue.capacity = b.queue.capacity
  dispatched : b'.queue.stats.dispatched = b.queue.stats.dispatched
  worker : b'.queue.worker = b.queue.worker
  /-- A record is put into the channel only where there is room. -/
  bounded : b.queue.channel.length ≤ b.queue.capacity
    → b'.queue.channel.length ≤ b.queue.capacity
  queued : b'.queue.stats.queued + (b.queue.channel.length + s.inTransit)
    = b.queue.stats.queued + (b'.queue.channel.length + s'.inTransit)
  enqueued : b'.queue.stats.enqueued + (s'.unsettled + b.queue.channel.length)
    = b.queue.stats.enqueued + (s.unsettled + b'.queue.channel.length)
  settled : b'.queue.stats.enqueued + b'.queue.stats.dropped + s.settled
    = b.queue.stats.enqueued + b.queue.stats.dropped + s'.settled

/-- A step of a submission moves its share, if there is something left to count off. -/
theorem Submission.step_counted (b : Background) {s : Submission}
    (hshare : s.inTransit ≤ b.queue.stats.queued) :
    Counted b (s.step b).2 s (s.step b).1 := by
  cases s with
  | fresh r => exact ⟨rfl, rfl, rfl, id, Nat.add_right_comm .., rfl, rfl⟩
  | counted r depth =>
      rcases b.queue.trySend_cases r with ⟨-, hroom, hsend⟩ | ⟨reason, hsend, -⟩
      · -- the share of the submission becomes the record in the channel
        simp only [step, hsend]
        refine ⟨rfl, rfl, rfl, fun _ => ?_, ?_, ?_, rfl⟩
        · rw [List.length_append]
          exact hroom
        · simp [inTransit]
        · simp [unsettled]
          omega
      · simp only [step, hsend]
        exact ⟨rfl, rfl, rfl, id, rfl, rfl, rfl⟩
  | accepted depth =>
      refine ⟨rfl, rfl, rfl, id, rfl, ?_, ?_⟩
      · show b.queue.stats.enqueued + 1 + (0 + b.queue.channel.length)
          = b.queue.stats.enqueued + (1 + b.queue.channel.length)
        omega
      · show b.queue.stats.enqueued + 1 + b.queue.stats.dropped + 0
          = b.queue.stats.enqueued + b.queue.stats.dropped + 1
        omega
  | refused r reason =>
      refine ⟨rfl, rfl, rfl, id, ?_, rfl, rfl⟩
      -- what is counted off was counted before
      have hpos : 1 ≤ b.queue.stats.queued := hshare
      show b.queue.stats.queued - 1 + (b.queue.channel.length + 1)
        = b.queue.stats.queued + (b.queue.channel.length + 0)
      omega
  | uncounted r reason => exact ⟨rfl, rfl, rfl, id, rfl, rfl, rfl⟩
  | tallied r reason total => exact ⟨rfl, rfl, rfl, id, rfl, rfl, rfl⟩
  | weighed r reason total last =>
      simp only [step]
      split
      next => exact ⟨rfl, rfl, rfl, id, rfl, rfl, rfl⟩
      next => exact ⟨rfl, rfl, rfl, id, rfl, rfl, rfl⟩
  | releasing r => exact ⟨rfl, rfl, rfl, id, rfl, rfl, rfl⟩
  | done => exact ⟨rfl, rfl, rfl, id, rfl, rfl, rfl⟩

/-- Each step brings a submission nearer to its end, whatever the others have done. -/
theorem Submission.step_nearer (b : Background) {s : Submission} (hbusy : s ≠ .done) :
    (s.step b).1.stepsLeft < s.stepsLeft := by
  cases s with
  | counted r depth =>
      rcases b.queue.trySend_cases r with ⟨-, -, hsend⟩ | ⟨reason, hsend, -⟩
      · simp [step, hsend, stepsLeft]
      · simp [step, hsend, stepsLeft]
  | weighed r reason total last =>
      simp only [step]
      split
      next => exact Nat.one_lt_two
      next => exact Nat.one_lt_two
  | done => exact absurd rfl hbusy
  | _ => exact Nat.lt_add_one _

namespace Background

variable {b b' : Background}

/-- What a step of the worker does to the counters. -/
structure Counted (b b' : Background) : Prop where
  capacity : b'.queue.capacity = b.queue.capacity
  enqueued : b'.queue.stats.enqueued = b.queue.stats.enqueued
  dropped : b'.queue.stats.dropped = b.queue.stats.dropped
  bounded : b'.queue.channel.length ≤ b.queue.channel.length
  queued : b'.queue.stats.queued + (b.queue.channel.length + b.queue.worker.uncounted)
    = b.queue.stats.queued + (b'.queue.channel.length + b'.queue.worker.uncounted)
  dispatched : b'.queue.stats.dispatched + (b'.queue.worker.busy
      + (b'.queue.worker.uncounted + b'.queue.channel.length))
    = b.queue.stats.dispatched + (b.queue.worker.busy
      + (b.queue.worker.uncounted + b.queue.channel.length))

/-- A step that moves the worker alone counts nothing, if the worker keeps its share. -/
theorem Counted.of_worker {worker : Worker} {state : LoggerState}
    (hqueue : b'.queue = { b.queue with worker, state })
    (huncounted : worker.uncounted = b.queue.worker.uncounted)
    (hbusy : worker.busy = b.queue.worker.busy) : Counted b b' := by
  constructor <;> rw [hqueue]
  case queued => rw [huncounted]
  case dispatched => rw [huncounted, hbusy]

/-- A step of the worker moves the share of its record, if there is something left to count
off. -/
theorem work_counted (h : b.work = some b')
    (hshare : b.queue.worker.uncounted ≤ b.queue.stats.queued) : Counted b b' := by
  cases work_worked h with
  | receives hworker hchannel hqueue hjournal =>
      -- the record in the channel becomes the share of the worker
      constructor <;> rw [hqueue]
      case bounded => simp [hchannel]
      case queued => simp [hworker, hchannel, Worker.uncounted]
      case dispatched =>
        simp [hworker, hchannel, Worker.uncounted, Worker.busy]
        omega
  | leaves hworker hchannel hclosed hqueue hjournal =>
      exact .of_worker hqueue (by rw [hworker]; rfl) (by rw [hworker]; rfl)
  | prepares hworker hworker' hsteady hqueue hstate hjournal =>
      -- the share stays with the worker, but is not counted as queued any more
      rw [hworker] at hshare
      have hpos : 1 ≤ b.queue.stats.queued := hshare
      constructor <;> rw [hqueue]
      case queued =>
        rw [hworker]
        show b.queue.stats.queued - 1 + (b.queue.channel.length + 1)
          = b.queue.stats.queued + (b.queue.channel.length + 0)
        omega
      case dispatched =>
        rw [hworker]
        show b.queue.stats.dispatched + (1 + (0 + b.queue.channel.length))
          = b.queue.stats.dispatched + (0 + (1 + b.queue.channel.length))
        omega
  | begins hworker hworker' hsteady hqueue hjournal =>
      exact .of_worker hqueue (by rw [hworker]; rfl) (by rw [hworker]; rfl)
  | calls hworker hjob hqueue =>
      exact .of_worker hqueue (by rw [hworker]; rfl) (by rw [hworker]; rfl)
  | returns hworker hjob hqueue =>
      exact .of_worker hqueue (by rw [hworker]; rfl) (by rw [hworker]; rfl)
  | counts hworker hworker' hsteady hqueue hjournal =>
      -- the share of the worker becomes a count
      constructor <;> rw [hqueue]
      case queued =>
        rw [hworker]
        rfl
      case dispatched =>
        rw [hworker]
        show b.queue.stats.dispatched + 1 + (0 + (0 + b.queue.channel.length))
          = b.queue.stats.dispatched + (1 + (0 + b.queue.channel.length))
        omega
  | rests hworker hworker' hsteady hqueue hstate hjournal =>
      exact .of_worker hqueue (by rw [hworker]; rfl) (by rw [hworker]; rfl)

/-- A dispatch that outlived its worker is not counted. -/
theorem workDetached_queue (h : b.workDetached = some b') :
    ∃ detached, b'.queue = { b.queue with detached } := by
  cases workDetached_outlived h with
  | calls hdetached hjob hqueue => exact ⟨_, hqueue⟩
  | returns hdetached hjob hqueue => exact ⟨_, hqueue⟩

theorem workDetached_still (h : b.workDetached = some b') : b.Still b' := by
  obtain ⟨detached, hqueue⟩ := workDetached_queue h
  constructor <;> rw [hqueue]

end Background

/-! ## §3. The course of a shutdown. -/

namespace Submission.Moved

variable {b b' : Background} {s s' : Submission}

/-- A submission leaves the worker, the handle and the sender alone, and without a sender the
channel as well. -/
theorem queue (h : Moved b b' s s') :
    b'.queue.worker = b.queue.worker ∧ b'.queue.accepting = b.queue.accepting
      ∧ b'.queue.hasHandle = b.queue.hasHandle
      ∧ (b.queue.accepting = false → b'.queue.channel = b.queue.channel) := by
  cases h with
  | steady hundecided hleaving htaken hsteady hworker =>
      exact ⟨hworker, hsteady.accepting, hsteady.hasHandle, fun _ => hsteady.channel⟩
  | accepts hopen htaken hb =>
      subst hb
      exact ⟨rfl, rfl, rfl, fun hclosed => absurd hopen (by simp [hclosed])⟩
  | refuses htaken hb =>
      subst hb
      exact ⟨rfl, rfl, rfl, fun _ => rfl⟩
  | releases hb =>
      subst hb
      exact ⟨rfl, rfl, rfl, fun _ => rfl⟩

end Submission.Moved

/-- A worker that takes a step is there; and it leaves an empty channel that is closed. -/
theorem Background.Worked.queue {b b' : Background} (h : Worked b b') :
    ¬ b.queue.worker.IsGone ∧ b'.queue.worker ≠ .aborted
      ∧ b'.queue.hasHandle = b.queue.hasHandle
      ∧ (b'.queue.worker = .exited → b'.queue.channel = [] ∧ b'.queue.accepting = false) := by
  unfold Worker.IsGone
  cases h with
  | receives hworker hchannel hqueue hjournal => simp [hworker, hqueue]
  | leaves hworker hchannel hclosed hqueue hjournal => simp [hworker, hqueue, hchannel, hclosed]
  | prepares hworker hworker' hsteady => simp [hworker, hworker', hsteady.hasHandle]
  | begins hworker hworker' hsteady => simp [hworker, hworker', hsteady.hasHandle]
  | calls hworker hjob hqueue => simp [hworker, hqueue]
  | returns hworker hjob hqueue => simp [hworker, hqueue]
  | counts hworker hworker' hsteady => simp [hworker, hworker', hsteady.hasHandle]
  | rests hworker hworker' hsteady => simp [hworker, hworker', hsteady.hasHandle]

namespace Logging

variable {a a' : Logging} {b : Background} {room discarded abandoned : Nat}

/-- How far the shutdown is, and what has become of the worker. -/
structure Course (a : Logging) : Prop where
  opened : a.shutdown = .begun → a.log.queue.accepting = true
  handle : a.shutdown = .begun ∨ a.shutdown = .closed ∨ a.shutdown = .draining →
    a.log.queue.hasHandle = true
  exited : a.log.queue.worker = .exited →
    a.log.queue.channel = [] ∧ a.log.queue.accepting = false
  drained : a.shutdown.finding = some true → a.log.queue.worker = .exited
  forced : a.log.queue.worker = .aborted → a.shutdown.finding = some false

/-- A step of the shutdown keeps to the course. -/
theorem Course.stop (h : a.Course) {expired : Bool} {sh : Shutdown}
    (hstep : a.shutdown.step a.log expired = some (sh, b)) :
    Course { a with log := b, shutdown := sh } := by
  have hstopped := Shutdown.step_stopped hstep
  have hforced := h.forced
  generalize hbefore : a.shutdown = before at hstopped hforced
  cases hstopped with
  | closes hb =>
      subst hb
      exact ⟨nofun, fun _ => h.handle (Or.inl hbefore), fun hexited => ⟨(h.exited hexited).1, rfl⟩,
        nofun, hforced⟩
  | drains hb =>
      subst hb
      exact ⟨nofun, fun _ => h.handle (Or.inr (Or.inl hbefore)), h.exited, nofun, hforced⟩
  | waits hhandle hb =>
      subst hb
      exact ⟨nofun, by simp, h.exited, nofun, hforced⟩
  | skips hhandle hb =>
      -- nobody else takes the handle
      have hthere := h.handle (Or.inr (Or.inr hbefore))
      rw [hhandle] at hthere
      cases hthere
  | sees hworker hb =>
      subst hb
      have hexited : a.log.queue.worker = .exited :=
        hworker.resolve_right fun hstopped => nomatch hforced hstopped
      exact ⟨nofun, by simp, h.exited, fun _ => hexited,
        fun hstopped => nomatch hexited.symm.trans hstopped⟩
  | aborts habort =>
      have hqueue := congrArg Background.queue (Background.abort?_eq habort).2
      rw [Background.dropAll_queue] at hqueue
      refine ⟨nofun, by simp, ?_, nofun, fun _ => rfl⟩
      dsimp only
      rw [hqueue]
      exact nofun
  | ends hb =>
      subst hb
      exact ⟨nofun, by simp, h.exited, fun hfinding => h.drained (by rw [hbefore]; exact hfinding),
        hforced⟩

/-- A step of any of the parties keeps to the course. -/
theorem step_course (h : a.Course) (hstep : Step a a') : a'.Course := by
  cases hstep with
  | submit hs hbusy =>
      rename_i k s
      obtain ⟨hworker, haccepting, hhandle, hchannel⟩ := (s.step_moved a.log).queue
      constructor
      case opened => exact fun hbegun => haccepting.trans (h.opened hbegun)
      case handle => exact fun hearly => hhandle.trans (h.handle hearly)
      case exited =>
        intro hexited
        obtain ⟨hnone, hclosed⟩ := h.exited (hworker.symm.trans hexited)
        exact ⟨(hchannel hclosed).trans hnone, haccepting.trans hclosed⟩
      case drained => exact fun hfinding => hworker.trans (h.drained hfinding)
      case forced => exact fun hstopped => h.forced (hworker.symm.trans hstopped)
  | work hb =>
      have hworked := Background.work_worked hb
      obtain ⟨hstays, hstays', hhandle, hexited⟩ := hworked.queue
      constructor
      case opened => exact fun hbegun => hworked.accepting.trans (h.opened hbegun)
      case handle => exact fun hearly => hhandle.trans (h.handle hearly)
      case exited => exact hexited
      case drained => exact fun hfinding => absurd (Or.inl (h.drained hfinding)) hstays
      case forced => exact fun hstopped => absurd hstopped hstays'
  | outlive hb =>
      obtain ⟨detached, hqueue⟩ := Background.workDetached_queue hb
      constructor <;> dsimp only <;> rw [hqueue]
      exacts [h.opened, h.handle, h.exited, h.drained, h.forced]
  | shutdown expired hs => exact h.stop hs
  | lapse hwaiting hworker =>
      exact ⟨nofun, by simp, h.exited, nofun, fun _ => rfl⟩

/-! ## §4. The books. -/

/-- What the counters of a log say, for a queue with room for `room` records.  A worker that
is stopped by force leaves counts behind: `discarded` is the number of records that were in the
channel then, and `abandoned` that of records which it had. -/
structure Books (room discarded abandoned : Nat) (a : Logging) : Prop where
  capacity : a.log.queue.capacity = room
  bounded : a.log.queue.channel.length ≤ room
  queued : a.log.queue.stats.queued = a.log.queue.channel.length
    + (a.submissions.map Submission.inTransit).sum + a.log.queue.worker.uncounted + discarded
  enqueued : a.log.queue.stats.enqueued + (a.submissions.map Submission.unsettled).sum
    = a.log.queue.stats.dispatched + a.log.queue.worker.busy + a.log.queue.worker.uncounted
      + a.log.queue.channel.length + (discarded + abandoned)
  settled : a.log.queue.stats.enqueued + a.log.queue.stats.dropped
    = (a.submissions.map Submission.settled).sum
  live : a.log.queue.worker ≠ .aborted → discarded = 0 ∧ abandoned = 0

/-- A step of a submission keeps the books. -/
theorem Books.submit (h : a.Books room discarded abandoned) {k : Nat} {s : Submission}
    (hs : a.submissions[k]? = some s) (accepted refused : List Record) :
    Books room discarded abandoned
      ⟨(s.step a.log).2, a.submissions.set k (s.step a.log).1, a.shutdown, accepted, refused⟩ := by
  have hqueued := h.queued
  have henqueued := h.enqueued
  have hsettled := h.settled
  have hshare := Submission.share_le (List.mem_of_getElem? hs) Submission.inTransit
  -- the step moves the share of this submission, and the other shares stay
  obtain ⟨hcapacity, hdispatched, hworker, hroom, hqueued', henqueued', hsettled'⟩ :=
    s.step_counted a.log (by omega)
  have htransit := sum_map_set hs (s.step a.log).1 Submission.inTransit
  have hunsettled := sum_map_set hs (s.step a.log).1 Submission.unsettled
  have hsum := sum_map_set hs (s.step a.log).1 Submission.settled
  rw [h.capacity] at hroom
  constructor <;> dsimp only
  case capacity => exact hcapacity.trans h.capacity
  case bounded => exact hroom h.bounded
  case queued =>
    rw [hworker]
    omega
  case enqueued =>
    rw [hworker, hdispatched]
    omega
  case settled => omega
  case live =>
    rw [hworker]
    exact h.live

/-- A step of the worker keeps the books. -/
theorem Books.work (h : a.Books room discarded abandoned) (hb : a.log.work = some b) :
    Books room discarded abandoned { a with log := b } := by
  have hqueued := h.queued
  have henqueued := h.enqueued
  obtain ⟨hcapacity, hsame, hdropped, hshorter, hqueued', hdispatched⟩ :=
    Background.work_counted hb (by omega)
  have hstays := (Background.work_worked hb).queue.1
  constructor <;> dsimp only
  case capacity => exact hcapacity.trans h.capacity
  case bounded => exact Nat.le_trans hshorter h.bounded
  case queued => omega
  case enqueued => omega
  case settled =>
    rw [hsame, hdropped]
    exact h.settled
  case live => exact fun _ => h.live fun hstopped => hstays (Or.inr hstopped)

/-- The books are kept where nothing changes that they tell of. -/
theorem Books.still (h : a.Books room discarded abandoned) (hstill : a.log.Still b)
    (sh : Shutdown) : Books room discarded abandoned { a with log := b, shutdown := sh } := by
  obtain ⟨hcapacity, hstats, hchannel, hworker⟩ := hstill
  constructor <;> dsimp only <;> simp only [hcapacity, hstats, hchannel, hworker]
  exacts [h.capacity, h.bounded, h.queued, h.enqueued, h.settled, h.live]

/-- A stop by force leaves behind what was in the channel, and the record of a dispatch. -/
theorem Books.aborts (h : a.Books room discarded abandoned) (sh : Shutdown)
    (habort : a.log.abort? = some b) :
    Books room a.log.queue.channel.length a.log.queue.worker.busy
      { a with log := b, shutdown := sh } := by
  obtain ⟨hworker, rfl⟩ := Background.abort?_eq habort
  have hqueued := h.queued
  have henqueued := h.enqueued
  -- the worker was there, and had counted off all that it had received
  have hstays : a.log.queue.worker ≠ .aborted ∧ a.log.queue.worker.uncounted = 0 := by
    rcases hworker with hworker | ⟨job, hworker⟩
    · rw [hworker]
      exact ⟨nofun, rfl⟩
    · rw [hworker]
      exact ⟨nofun, rfl⟩
  obtain ⟨rfl, rfl⟩ := h.live hstays.1
  rw [hstays.2] at hqueued henqueued
  constructor <;> dsimp only <;> rw [Background.dropAll_queue]
  case capacity => exact h.capacity
  case bounded => exact Nat.zero_le _
  case queued =>
    show a.log.queue.stats.queued = 0 + _ + 0 + _
    omega
  case enqueued =>
    show a.log.queue.stats.enqueued + _ = a.log.queue.stats.dispatched + 0 + 0 + 0 + _
    omega
  case settled => exact h.settled
  case live => exact fun hstopped => absurd rfl hstopped

/-- A step of any of the parties keeps the books. -/
theorem step_books (h : a.Books room discarded abandoned) (hstep : Step a a') :
    ∃ discarded' abandoned', a'.Books room discarded' abandoned' := by
  cases hstep with
  | submit hs hbusy => exact ⟨discarded, abandoned, h.submit hs _ _⟩
  | work hb => exact ⟨discarded, abandoned, h.work hb⟩
  | outlive hb =>
      exact ⟨discarded, abandoned, h.still (Background.workDetached_still hb) _⟩
  | shutdown expired hs =>
      rcases (Shutdown.step_stopped hs).still with habort | hstill
      · exact ⟨_, _, h.aborts _ habort⟩
      · exact ⟨discarded, abandoned, h.still hstill _⟩
  | lapse hwaiting hworker =>
      exact ⟨discarded, abandoned, h.still ⟨rfl, rfl, rfl, rfl⟩ _⟩

/-- A run keeps the books and the course. -/
theorem run_books (h : a.Books room discarded abandoned) (hcourse : a.Course) (hrun : Run a a') :
    (∃ discarded' abandoned', a'.Books room discarded' abandoned') ∧ a'.Course := by
  induction hrun with
  | refl => exact ⟨⟨discarded, abandoned, h⟩, hcourse⟩
  | tail hrun hstep ih =>
      obtain ⟨⟨discarded', abandoned', h'⟩, hcourse'⟩ := ih
      exact ⟨step_books h' hstep, step_course hcourse' hstep⟩

/-- Before anything was done, nothing is counted. -/
theorem start_books {capacity warnEvery : Nat} {q : Queue}
    (hq : Queue.ofCapacity? capacity warnEvery = some q) (j : Journal) (records : List Record) :
    (start j q records).Books (max capacity 1) 0 0 ∧ (start j q records).Course := by
  unfold Queue.ofCapacity? at hq
  split at hq
  next => cases hq
  next =>
    cases hq
    obtain ⟨htransit, hunsettled, hsettled⟩ :=
      Submission.sum_of_none_midway (l := records.map .fresh) (by simp [Submission.isMidway])
    have hnone : (records.map Submission.fresh).countP Submission.isDone = 0 := by
      simp [Submission.isDone]
    constructor
    · constructor
      case capacity => rfl
      case bounded => exact Nat.zero_le _
      case queued =>
        show 0 = 0 + ((records.map Submission.fresh).map Submission.inTransit).sum + 0 + 0
        rw [htransit]
      case enqueued =>
        show 0 + ((records.map Submission.fresh).map Submission.unsettled).sum = 0
        rw [hunsettled]
      case settled => exact (hsettled.trans hnone).symm
      case live => exact fun _ => ⟨rfl, rfl⟩
    · exact ⟨fun _ => rfl, fun _ => rfl, nofun, nofun, nofun⟩

/-! ## §5. What the counters say. -/

/-- What the counters say of a log whose queue has room for `room` records, as long as no
shutdown has given up on the worker. -/
structure Reconciled (room : Nat) (a : Logging) : Prop where
  bounded : a.log.queue.channel.length ≤ room
  /-- A submission never waits: it can take its next step at any time, and is over after a few
  of them. -/
  prompt : ∀ (k : Nat) (s : Submission), a.submissions[k]? = some s → s ≠ .done →
    s.stepsLeft ≤ Submission.maxSteps
      ∧ ∃ a' s', Step a a' ∧ a'.submissions[k]? = some s' ∧ s'.stepsLeft < s.stepsLeft
  /-- It is refused only where the channel is full, or where there is no sender any more. -/
  refuses : ∀ r depth r' reason, (Submission.step a.log (.counted r depth)).1 = .refused r' reason
    → r' = r ∧ (reason = .queueFull ∧ a.log.queue.channel.length = room
      ∨ reason = .loggerStopped ∧ a.log.queue.accepting = false)
  /-- Before a shutdown there are a sender and a worker. -/
  opened : a.shutdown = .begun → a.log.queue.accepting = true ∧ ¬ a.log.queue.worker.IsGone
  queued : a.shutdown.finding ≠ some false → a.log.queue.stats.queued
    = a.log.queue.channel.length + (a.submissions.map Submission.inTransit).sum
      + a.log.queue.worker.uncounted
  /-- What is to be counted off has been counted. -/
  positive : (∀ r reason, .refused r reason ∈ a.submissions → 0 < a.log.queue.stats.queued)
    ∧ ∀ r, a.log.queue.worker = .received r → 0 < a.log.queue.stats.queued
  settled : a.log.queue.stats.enqueued + a.log.queue.stats.dropped
    = (a.submissions.map Submission.settled).sum
  enqueued : a.shutdown.finding ≠ some false →
    a.log.queue.stats.enqueued + (a.submissions.map Submission.unsettled).sum
      = a.log.queue.stats.dispatched + a.log.queue.worker.busy + a.log.queue.worker.uncounted
        + a.log.queue.channel.length
  /-- Where no submission is midway, the counters tell how many there were, and how many records
  are on their way. -/
  resting : (∀ s ∈ a.submissions, s.isMidway = false) →
    a.log.queue.stats.enqueued + a.log.queue.stats.dropped
        = a.submissions.countP Submission.isDone
      ∧ (a.shutdown.finding ≠ some false → a.log.queue.stats.enqueued
        = a.log.queue.stats.dispatched + a.log.queue.stats.queued + a.log.queue.worker.busy)
  /-- Once a shutdown has found the queue empty, only submissions that are midway have a share. -/
  drained : a.shutdown.finding = some true →
    a.log.queue.stats.queued = (a.submissions.map Submission.inTransit).sum
      ∧ a.log.queue.stats.dispatched
        = a.log.queue.stats.enqueued + (a.submissions.map Submission.unsettled).sum
      ∧ ((∀ s ∈ a.submissions, s.isMidway = false) →
        a.log.queue.stats.queued = 0
          ∧ a.log.queue.stats.dispatched = a.log.queue.stats.enqueued)

/-- While no shutdown has given up on the worker, nothing was left behind. -/
theorem Books.kept (h : a.Books room discarded abandoned) (hcourse : a.Course)
    (hfinding : a.shutdown.finding ≠ some false) : discarded = 0 ∧ abandoned = 0 :=
  h.live fun hstopped => hfinding (hcourse.forced hstopped)

/-- What the books say of the counters. -/
theorem Books.reconciled (h : a.Books room discarded abandoned) (hcourse : a.Course) :
    a.Reconciled room := by
  have hqueued := h.queued
  have henqueued := h.enqueued
  constructor
  case bounded => exact h.bounded
  case prompt =>
    intro k s hs hbusy
    refine ⟨?_, _, (s.step a.log).1, .submit hs hbusy, ?_, Submission.step_nearer _ hbusy⟩
    · cases s <;> simp [Submission.stepsLeft, Submission.maxSteps]
    · exact List.getElem?_set_self (List.getElem?_eq_some_iff.mp hs).1
  case refuses =>
    intro r depth r' reason hrefused
    rcases a.log.queue.trySend_cases r with ⟨-, -, hsend⟩ | ⟨reason', hsend, hwhy⟩
    · simp only [Submission.step, hsend] at hrefused
      cases hrefused
    · simp only [Submission.step, hsend] at hrefused
      cases hrefused
      rw [h.capacity] at hwhy
      exact ⟨rfl, hwhy.imp_left (And.imp_right (Nat.le_antisymm h.bounded))⟩
  case opened =>
    intro hbegun
    have hopen := hcourse.opened hbegun
    refine ⟨hopen, fun hgone => ?_⟩
    rcases hgone with hexited | hstopped
    · rw [(hcourse.exited hexited).2] at hopen
      cases hopen
    · have hfinding := hcourse.forced hstopped
      rw [hbegun] at hfinding
      cases hfinding
  case queued =>
    intro hfinding
    obtain ⟨rfl, -⟩ := h.kept hcourse hfinding
    exact hqueued
  case positive =>
    constructor
    · intro r reason hmem
      have hshare : 1 ≤ _ := Submission.share_le hmem Submission.inTransit
      omega
    · intro r hworker
      rw [hworker] at hqueued
      have hshare : 1 = Worker.uncounted (.received r) := rfl
      omega
  case settled => exact h.settled
  case enqueued =>
    intro hfinding
    obtain ⟨rfl, rfl⟩ := h.kept hcourse hfinding
    exact henqueued
  case resting =>
    intro hresting
    obtain ⟨htransit, hunsettled, hsettled⟩ := Submission.sum_of_none_midway hresting
    refine ⟨h.settled.trans hsettled, fun hfinding => ?_⟩
    obtain ⟨rfl, rfl⟩ := h.kept hcourse hfinding
    omega
  case drained =>
    intro hfinding
    -- the worker has left an empty channel
    have hworker := hcourse.drained hfinding
    obtain ⟨rfl, rfl⟩ := h.kept hcourse (by simp [hfinding])
    rw [(hcourse.exited hworker).1, hworker] at hqueued henqueued
    have hqueued' : a.log.queue.stats.queued
        = (a.submissions.map Submission.inTransit).sum := by
      simpa [Worker.uncounted] using hqueued
    have henqueued' : a.log.queue.stats.dispatched
        = a.log.queue.stats.enqueued + (a.submissions.map Submission.unsettled).sum := by
      simpa [Worker.uncounted, Worker.busy] using henqueued.symm
    refine ⟨hqueued', henqueued', fun hresting => ?_⟩
    obtain ⟨htransit, hunsettled, -⟩ := Submission.sum_of_none_midway hresting
    exact ⟨hqueued'.trans htransit, henqueued'.trans (by rw [hunsettled]; rfl)⟩

/-- **The counters add up, and the queue is bounded**, whatever the capacity, the records and the
sinks, in every order of steps: each counter is off by just the half-finished steps, and so by
none where nobody is midway. -/
theorem counters_reconcile {capacity warnEvery : Nat} {q : Queue}
    (hq : Queue.ofCapacity? capacity warnEvery = some q) (j : Journal) (records : List Record)
    (a : Logging) (hrun : Run (start j q records) a) : a.Reconciled (max capacity 1) := by
  obtain ⟨hstart, hcourse⟩ := start_books hq j records
  obtain ⟨⟨discarded, abandoned, h⟩, hcourse'⟩ := run_books hstart hcourse hrun
  exact h.reconciled hcourse'

/-- The same of two records for a queue with room for one: the first has just been received, the
second was refused before, and both are still counted as queued. -/
theorem counters_reconcile_of_two :
    let j : Journal := ⟨⟨.ofDirectories [["b"]] [], ⟨true, .ofText "/b", 4, .both ∅⟩, .zero⟩,
      ⟨[.events], [], .idle, 0⟩, []⟩
    let r (id : String) : Record := Record.new ⟨id⟩ "GET" "/" ⟨0, 0⟩
    ∃ q a, Queue.ofCapacity? 1 1 = some q ∧ Run (start j q [r "x", r "y"]) a
      ∧ a.log.queue.worker = .received (r "x") ∧ .refused (r "y") .queueFull ∈ a.submissions
      ∧ a.log.queue.stats.queued = 2 ∧ a.Reconciled 1 := by
  intro j r
  have hq : Queue.ofCapacity? 1 1
      = some ⟨1, 1, 0, true, [], ⟨0, 0, 0, 0, 0⟩, .idle, .waiting, true, []⟩ := rfl
  have hrun : ∃ a, Run (start j ⟨1, 1, 0, true, [], ⟨0, 0, 0, 0, 0⟩, .idle, .waiting, true, []⟩
      [r "x", r "y"]) a ∧ a.log.queue.worker = .received (r "x")
        ∧ .refused (r "y") .queueFull ∈ a.submissions ∧ a.log.queue.stats.queued = 2 :=
    ⟨_, .tail (.tail (.tail (.tail (.tail .refl (.submit (k := 0) rfl nofun))
      (.submit (k := 1) rfl nofun)) (.submit (k := 0) rfl nofun))
      (.submit (k := 1) rfl nofun)) (.work rfl), rfl, List.mem_of_getElem? (i := 1) rfl, rfl⟩
  obtain ⟨a, hrun, hworker, hrefused, hqueued⟩ := hrun
  exact ⟨_, a, hq, hrun, hworker, hrefused, hqueued, counters_reconcile hq j _ a hrun⟩

end Logging

end Wiretap
