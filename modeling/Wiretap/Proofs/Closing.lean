/-
  Wiretap.Proofs.Closing
  ──────────────────────
  **SEVERAL CALLS SHUT ONE LOG DOWN.**

  Any number of calls of a shutdown, one after another or overlapping, meet at one log.  The
  handle of the worker is there once: the call that takes it (`Closing.taker`) waits for the
  worker, and every other one answers `true` without a look at it.

  Such a log does what one with a single shutdown does (`Closing.step_seen`): the taker, or
  before there is one the call that has come furthest, is that shutdown, and what the others do
  shows in the state of the log alone.  So what is known of a single shutdown carries over
  (`Closing.run_seen`), and says what an answer is worth:

    • `Closing.step_state`     — the state is `stopped` unless a call is under way,
    • `Closing.answered_true`  — what is behind an answer of `true`, by who gave it,
    • `Closing.true_answer_without_wait` — a call that answers `true` behind one that gave up.
-/
import Wiretap.Proofs.Counters

namespace Wiretap

/-! ## §1. Several calls at one log. -/

/-- Who set the gauge, and what was seen then. -/
inductive Report
  /-- A submission, that had made so many queued records when it was counted. -/
  | entered (depth : Nat)
  /-- The worker, with so many records left in the channel and so many on their way into it. -/
  | left (waiting inTransit : Nat)
  deriving DecidableEq, Repr

/-- What the gauge is set to. -/
def Report.depth : Report → Nat
  | .entered depth => depth
  | .left waiting inTransit => waiting + inTransit

/-- What a step of a submission reports. -/
def Submission.report? : Submission → Option Report
  | .accepted depth => some (.entered depth)
  | _ => none

/-- A log in the background with those who submit records to it and those who shut it down. -/
structure Closing where
  log : Background
  submissions : List Submission
  /-- The calls of a shutdown. -/
  calls : List Shutdown
  /-- The records that were put into the channel so far, in order. -/
  accepted : List Record
  /-- The records that were turned away so far. -/
  refused : List Record
  /-- The call that has taken the handle of the worker. -/
  taker : Option Nat
  /-- What was reported last. -/
  report : Option Report

namespace Closing

/-- Everybody is about to submit a record or to shut the log down, and nothing was done yet. -/
def start (j : Journal) (q : Queue) (records : List Record) (calls : Nat) : Closing :=
  ⟨⟨j, q⟩, records.map .fresh, List.replicate calls .begun, [], [], none, none⟩

/-- What a step of the worker reports. -/
def workerReport? (a : Closing) : Option Report :=
  match a.log.queue.worker with
  | .received _ =>
    some (.left a.log.queue.channel.length (a.submissions.map Submission.inTransit).sum)
  | _ => none

/-- A step of one of the parties. -/
inductive Step : Closing → Closing → Prop
  | submit {a : Closing} {k : Nat} {s : Submission} (hs : a.submissions[k]? = some s)
      (hbusy : s ≠ .done) :
      Step a
        { a with
          log := (s.step a.log).2
          submissions := a.submissions.set k (s.step a.log).1
          accepted := a.accepted ++ s.taken a.log
          refused := a.refused ++ s.turnedAway a.log
          report := s.report?.or a.report }
  | work {a : Closing} {b : Background} (h : a.log.work = some b) :
      Step a { a with log := b, report := a.workerReport?.or a.report }
  | outlive {a : Closing} {b : Background} (h : a.log.workDetached = some b) :
      Step a { a with log := b }
  | shutdown {a : Closing} {b : Background} {k : Nat} {sh sh' : Shutdown} (expired : Bool)
      (hcall : a.calls[k]? = some sh) (h : sh.step a.log expired = some (sh', b)) :
      Step a
        { a with
          log := b
          calls := a.calls.set k sh'
          taker := if sh' = .waiting then some k else a.taker }
  /-- The worker left between the end of the time to wait and the stop by force. -/
  | lapse {a : Closing} {k : Nat} (hcall : a.calls[k]? = some .waiting)
      (hworker : a.log.queue.worker = .exited) :
      Step a { a with calls := a.calls.set k (.ending false) }

/-- A run of any number of steps. -/
abbrev Run : Closing → Closing → Prop := Relation.ReflTransGen Step

end Closing

/-! ## §2. As one shutdown sees it. -/

/-- How far a shutdown is. -/
def Shutdown.stage : Shutdown → Nat
  | .begun => 0
  | .closed => 1
  | .draining => 2
  | .waiting => 3
  | .ending _ => 4
  | .ended _ => 5

/-- With another state of the log. -/
def Logging.withState (a : Logging) (state : LoggerState) : Logging :=
  { a with log := { a.log with queue := { a.log.queue with state } } }

namespace Closing

variable {a a' : Closing} {lead : Shutdown}

/-- The log with one shutdown in place of all calls. -/
def seen (a : Closing) (lead : Shutdown) : Logging :=
  ⟨a.log, a.submissions, lead, a.accepted, a.refused⟩

/-- The shutdown that stands for all calls: the taker, or, before there is one, one that is as
far as any of them. -/
inductive Led (a : Closing) (lead : Shutdown) : Prop
  | untaken (htaker : a.taker = none) (hearly : lead.stage < Shutdown.waiting.stage)
      (hcalls : ∀ sh ∈ a.calls, sh.stage ≤ lead.stage)
  | taken {k : Nat} (htaker : a.taker = some k) (hlead : a.calls[k]? = some lead)
      (hlate : Shutdown.waiting.stage ≤ lead.stage) (hhandle : a.log.queue.hasHandle = false)
      (halone : ∀ i, a.calls[i]? = some .waiting → i = k)

/-- What is known of a single shutdown that the others rely on. -/
structure Guarded (s : Logging) : Prop where
  closed : s.shutdown ≠ .begun → s.log.queue.accepting = false
  handle : s.shutdown.stage < Shutdown.waiting.stage → s.log.queue.hasHandle = true

theorem start_led (j : Journal) (q : Queue) (records : List Record) (calls : Nat) :
    (start j q records calls).Led .begun := by
  refine .untaken rfl (by decide) fun sh hmem => ?_
  obtain rfl := List.eq_of_mem_replicate hmem
  exact Nat.le_refl 0

/-- The lead stays where it is while nobody calls and the handle stays where it is. -/
theorem Led.keep (h : a.Led lead) (hcalls : a'.calls = a.calls) (htaker' : a'.taker = a.taker)
    (hhandle' : a'.log.queue.hasHandle = a.log.queue.hasHandle) : a'.Led lead := by
  cases h with
  | untaken htaker hearly hall =>
      exact .untaken (htaker'.trans htaker) hearly (by rwa [hcalls])
  | taken htaker hlead hlate hhandle halone =>
      exact .taken (htaker'.trans htaker) (by rwa [hcalls]) hlate (hhandle'.trans hhandle)
        (by rwa [hcalls])

/-- The lead goes on, before the handle is taken. -/
theorem Led.ahead {b : Background} {k : Nat} {sh : Shutdown}
    (hall : ∀ other ∈ a.calls, other.stage ≤ sh.stage) (htaker : a.taker = none)
    (hearly : sh.stage < Shutdown.waiting.stage) :
    Led { a with log := b, calls := a.calls.set k sh } sh := by
  refine .untaken htaker hearly fun other hmem => ?_
  rcases List.mem_or_eq_of_mem_set hmem with hold | rfl
  · exact hall other hold
  · exact Nat.le_refl _

/-- A call that does not lead goes on without the handle, and stays behind the lead. -/
theorem Led.beside (h : a.Led lead) {b : Background} {k : Nat} {sh : Shutdown}
    (hnot : a.taker ≠ some k) (hwaits : sh ≠ .waiting)
    (hbehind : a.taker = none → sh.stage ≤ lead.stage)
    (hhandle' : b.queue.hasHandle = a.log.queue.hasHandle) :
    Led { a with log := b, calls := a.calls.set k sh } lead := by
  cases h with
  | untaken htaker hearly hall =>
      refine .untaken htaker hearly fun other hmem => ?_
      rcases List.mem_or_eq_of_mem_set hmem with hold | rfl
      · exact hall other hold
      · exact hbehind htaker
  | taken htaker hlead hlate hhandle halone =>
      rename_i taker
      have hother : k ≠ taker := fun heq => hnot (by rw [htaker, heq])
      refine .taken htaker ?_ hlate (hhandle'.trans hhandle) fun i hi => ?_
      · rw [List.getElem?_set_ne hother]
        exact hlead
      · by_cases hik : k = i
        · subst hik
          rw [List.getElem?_set] at hi
          simp only [if_true] at hi
          split at hi
          next => exact absurd (Option.some.inj hi) hwaits
          next => cases hi
        · rw [List.getElem?_set_ne hik] at hi
          exact halone i hi

/-- The taker goes on. -/
theorem Led.along {b : Background} {k : Nat} {sh : Shutdown} (htaker : a.taker = some k)
    (hk : k < a.calls.length) (halone : ∀ i, a.calls[i]? = some .waiting → i = k)
    (hlate : Shutdown.waiting.stage ≤ sh.stage) (hhandle : b.queue.hasHandle = false) :
    Led { a with log := b, calls := a.calls.set k sh } sh := by
  refine .taken htaker ?_ hlate hhandle fun i hi => ?_
  · rw [List.getElem?_set_self hk]
  · by_cases hik : k = i
    · exact hik.symm
    · rw [List.getElem?_set_ne hik] at hi
      exact halone i hi

/-- A call that has not come to the handle has not taken it. -/
theorem Led.not_taker (h : a.Led lead) {k : Nat} {sh : Shutdown} (hcall : a.calls[k]? = some sh)
    (hearly : sh.stage < Shutdown.waiting.stage) : a.taker ≠ some k := by
  intro htaken
  cases h with
  | untaken htaker _ _ => rw [htaker] at htaken; cases htaken
  | taken htaker hlead hlate _ _ =>
      obtain rfl := Option.some.inj (htaker.symm.trans htaken)
      obtain rfl := Option.some.inj (hcall.symm.trans hlead)
      exact absurd hearly (Nat.not_lt.mpr hlate)

/-- A call that waits for the worker leads. -/
theorem Led.waits (h : a.Led lead) {k : Nat} (hcall : a.calls[k]? = some .waiting) :
    lead = .waiting ∧ a.taker = some k ∧ a.log.queue.hasHandle = false
      ∧ ∀ i, a.calls[i]? = some .waiting → i = k := by
  cases h with
  | untaken _ hearly hall =>
      exact absurd (hall _ (List.mem_of_getElem? hcall)) (Nat.not_le.mpr hearly)
  | taken htaker hlead _ hhandle halone =>
      obtain rfl := halone k hcall
      exact ⟨Option.some.inj (hlead.symm.trans hcall), htaker, hhandle, halone⟩

/-- **A step of a call** is one of the shutdown that stands for all, or it is seen in the state
of the log alone. -/
theorem Led.call (h : a.Led lead) (hg : Guarded (a.seen lead)) {b : Background} {k : Nat}
    {sh sh' : Shutdown} (hcall : a.calls[k]? = some sh) (hstopped : sh.Stopped a.log b sh') :
    let a' : Closing := { a with
      log := b
      calls := a.calls.set k sh'
      taker := if sh' = .waiting then some k else a.taker }
    (sh = lead ∧ a'.Led sh')
      ∨ (a'.Led lead ∧ ∃ state, b = { a.log with queue := { a.log.queue with state } }) := by
  intro a'
  -- a call that is beside the lead, and does not take the handle
  have hbeside (hnot : a.taker ≠ some k) (hwaits : sh' ≠ .waiting)
      (hbehind : a.taker = none → sh'.stage ≤ lead.stage)
      (hhandle : b.queue.hasHandle = a.log.queue.hasHandle) : a'.Led lead := by
    show Led { a with
      log := b, calls := a.calls.set k sh'
      taker := if sh' = .waiting then some k else a.taker } lead
    rw [if_neg hwaits]
    exact h.beside hnot hwaits hbehind hhandle
  cases hstopped with
  | closes hb =>
      by_cases hlead : lead = .begun
      · subst hlead
        refine Or.inl ⟨rfl, ?_⟩
        cases h with
        | untaken htaker _ hall =>
            exact .ahead (fun other hmem => Nat.le_succ_of_le (hall other hmem)) htaker (by decide)
        | taken _ _ hlate _ _ => exact absurd hlate (by decide)
      · -- the sender was taken already
        have hclosed : a.log.queue.accepting = false := hg.closed hlead
        refine Or.inr ⟨hbeside (h.not_taker hcall (by decide)) nofun (fun _ => ?_) (by rw [hb]),
          a.log.queue.state, by rw [hb, ← hclosed]⟩
        cases lead <;> simp [Shutdown.stage] at hlead ⊢
  | drains hb =>
      by_cases hlead : lead = .closed
      · subst hlead
        refine Or.inl ⟨rfl, ?_⟩
        cases h with
        | untaken htaker _ hall =>
            exact .ahead (fun other hmem => Nat.le_succ_of_le (hall other hmem)) htaker (by decide)
        | taken _ _ hlate _ _ => exact absurd hlate (by decide)
      · refine Or.inr ⟨hbeside (h.not_taker hcall (by decide)) nofun (fun htaker => ?_)
          (by rw [hb]), .draining, hb⟩
        cases h with
        | untaken _ _ hall =>
            have hfar := hall _ (List.mem_of_getElem? hcall)
            cases lead <;> simp [Shutdown.stage] at hlead hfar ⊢
        | taken htaken _ _ _ _ => rw [htaker] at htaken; cases htaken
  | waits hhandle hb =>
      cases h with
      | untaken htaker hearly hall =>
          have hfar := hall _ (List.mem_of_getElem? hcall)
          have hlead : lead = .draining := by
            cases lead <;> simp [Shutdown.stage] at hearly hfar ⊢
          refine Or.inl ⟨hlead.symm, ?_⟩
          have hk := (List.getElem?_eq_some_iff.mp hcall).1
          have hgone : b.queue.hasHandle = false := by rw [hb]
          refine .taken rfl (List.getElem?_set_self hk) (by decide) hgone fun i hi => ?_
          by_contra hik
          rw [List.getElem?_set_ne (Ne.symm hik)] at hi
          -- nobody waited before
          exact absurd (Nat.lt_of_le_of_lt (hall _ (List.mem_of_getElem? hi)) hearly) (by decide)
      | taken _ _ _ hgone _ => rw [hhandle] at hgone; cases hgone
  | skips hhandle hb =>
      have hlate : Shutdown.waiting.stage ≤ lead.stage := by
        by_contra hearly
        have hthere : a.log.queue.hasHandle = true := hg.handle (Nat.not_le.mp hearly)
        rw [hhandle] at hthere
        cases hthere
      refine Or.inr ⟨hbeside (h.not_taker hcall (by decide)) nofun (fun htaker => ?_)
        (by rw [hb]), a.log.queue.state, hb⟩
      cases h with
      | untaken _ hearly _ => exact absurd hearly (Nat.not_lt.mpr hlate)
      | taken htaken _ _ _ _ => rw [htaker] at htaken; cases htaken
  | sees hworker hb =>
      obtain ⟨hlead, htaker, hhandle, halone⟩ := h.waits hcall
      exact Or.inl ⟨hlead.symm, .along htaker (List.getElem?_eq_some_iff.mp hcall).1 halone
        (by decide) (hb ▸ hhandle)⟩
  | aborts habort =>
      obtain ⟨hlead, htaker, hhandle, halone⟩ := h.waits hcall
      refine Or.inl ⟨hlead.symm, .along htaker (List.getElem?_eq_some_iff.mp hcall).1 halone
        (by decide) ?_⟩
      rw [(Background.abort?_eq habort).2, Background.dropAll_queue]
      exact hhandle
  | ends hb =>
      rename_i drained
      by_cases htaken : a.taker = some k
      · cases h with
        | untaken htaker _ _ => rw [htaker] at htaken; cases htaken
        | taken htaker hlead _ hhandle halone =>
            obtain rfl := Option.some.inj (htaker.symm.trans htaken)
            exact Or.inl ⟨Option.some.inj (hcall.symm.trans hlead),
              .along htaker (List.getElem?_eq_some_iff.mp hcall).1 halone
                (by simp [Shutdown.stage]) (by rw [hb]; exact hhandle)⟩
      · refine Or.inr ⟨hbeside htaken nofun (fun htaker => ?_) (by rw [hb]), .stopped, hb⟩
        -- no call ends before the handle is taken
        cases h with
        | untaken _ hearly hall =>
            exact absurd (Nat.lt_of_le_of_lt (hall _ (List.mem_of_getElem? hcall)) hearly)
              (by simp [Shutdown.stage])
        | taken htaker' _ _ _ _ => rw [htaker] at htaker'; cases htaker'

/-- **What the log does is what one with a single shutdown does**, but for its state. -/
theorem step_seen (h : a.Led lead) (hg : Guarded (a.seen lead)) (hstep : Step a a') :
    ∃ lead', a'.Led lead' ∧ (Logging.Step (a.seen lead) (a'.seen lead')
      ∨ lead' = lead ∧ ∃ state, a'.seen lead = (a.seen lead).withState state) := by
  cases hstep with
  | submit hs hbusy =>
      rename_i k s
      exact ⟨lead, h.keep rfl rfl (s.step_moved a.log).queue.2.2.1, Or.inl (.submit hs hbusy)⟩
  | work hb =>
      exact ⟨lead, h.keep rfl rfl (Background.work_worked hb).queue.2.2.1, Or.inl (.work hb)⟩
  | outlive hb =>
      rename_i b
      obtain ⟨detached, hqueue⟩ := Background.workDetached_queue hb
      have hhandle : b.queue.hasHandle = a.log.queue.hasHandle := by rw [hqueue]
      exact ⟨lead, h.keep rfl rfl hhandle, Or.inl (.outlive hb)⟩
  | shutdown expired hcall hs =>
      rename_i b k sh sh'
      rcases h.call hg hcall (Shutdown.step_stopped hs) with ⟨rfl, hled⟩ | ⟨hled, state, hb⟩
      · exact ⟨sh', hled, Or.inl (.shutdown expired hs)⟩
      · refine ⟨lead, hled, Or.inr ⟨rfl, state, ?_⟩⟩
        rw [hb]
        rfl
  | lapse hcall hworker =>
      obtain ⟨hlead, htaker, hhandle, halone⟩ := h.waits hcall
      refine ⟨.ending false, .along htaker (List.getElem?_eq_some_iff.mp hcall).1 halone
        (by decide) hhandle, Or.inl ?_⟩
      exact .lapse hlead hworker

/-- **What holds of a log with a single shutdown**, step by step and whatever its state is,
holds of one with several calls. -/
theorem run_seen {P : Logging → Prop} {j : Journal} {q : Queue} {records : List Record}
    {calls : Nat} (hstart : P (.start j q records)) (hguarded : ∀ s, P s → Guarded s)
    (hstep : ∀ s s', P s → Logging.Step s s' → P s')
    (hstate : ∀ s state, P s → P (s.withState state)) (hrun : Run (start j q records calls) a) :
    ∃ lead, a.Led lead ∧ P (a.seen lead) := by
  induction hrun with
  | refl => exact ⟨.begun, start_led j q records calls, hstart⟩
  | tail hrun hlast ih =>
      obtain ⟨lead, hled, hP⟩ := ih
      obtain ⟨lead', hled', hseen | ⟨rfl, state, hseen⟩⟩ := step_seen hled (hguarded _ hP) hlast
      · exact ⟨lead', hled', hstep _ _ hP hseen⟩
      · exact ⟨lead', hled', hseen ▸ hstate _ state hP⟩

end Closing

namespace Logging

variable {s : Logging} {n : Nat} {records done discarded : List Record}

theorem Accounts.guarded (h : s.Accounts n records done discarded) : Closing.Guarded s := by
  refine ⟨h.closed, fun hearly => h.handle ?_⟩
  cases hs : s.shutdown with
  | begun => exact Or.inl rfl
  | closed => exact Or.inr (Or.inl rfl)
  | draining => exact Or.inr (Or.inr rfl)
  | waiting => rw [hs] at hearly; exact absurd hearly (by decide)
  | ending drained => rw [hs] at hearly; exact absurd hearly (by simp [Shutdown.stage])
  | ended drained => rw [hs] at hearly; exact absurd hearly (by simp [Shutdown.stage])

theorem Accounts.withState (h : s.Accounts n records done discarded) (state : LoggerState) :
    (s.withState state).Accounts n records done discarded :=
  h.steady ⟨rfl, rfl, rfl, rfl, .refl _⟩ rfl rfl
    (fun job hmem => h.within job (List.mem_append_left _ hmem)) Iff.rfl Iff.rfl

end Logging

/-! ## §3. The state of the log. -/

/-- Whether a call has told the log to drain, and has not told it to stop. -/
def Shutdown.isStopping : Shutdown → Bool
  | .draining => true
  | .waiting => true
  | .ending _ => true
  | _ => false

/-- Whether a call has returned. -/
def Shutdown.isOver : Shutdown → Bool
  | .ended _ => true
  | _ => false

/-- A worker does not touch the state of a log that was stopped. -/
theorem Background.work_state {b b' : Background} (h : b.work = some b')
    (hstopped : b.queue.state = .stopped) : b'.queue.state = .stopped := by
  cases work_worked h with
  | receives hworker hchannel hqueue hjournal => rw [hqueue, hstopped]
  | leaves hworker hchannel hclosed hqueue hjournal => rw [hqueue, hstopped]
  | prepares hworker hworker' hsteady hqueue hstate hjournal =>
      rw [hqueue]
      rcases hstate with hsame | hidle
      · exact hsame.trans hstopped
      · cases hidle.symm.trans hstopped
  | begins hworker hworker' hsteady hqueue hjournal => rw [hqueue, hstopped]
  | calls hworker hjob hqueue => rw [hqueue, hstopped]
  | returns hworker hjob hqueue => rw [hqueue, hstopped]
  | counts hworker hworker' hsteady hqueue hjournal => rw [hqueue, hstopped]
  | rests hworker hworker' hsteady hqueue hstate hjournal =>
      rw [hqueue]
      rcases hstate with hsame | hdispatching
      · exact hsame.trans hstopped
      · cases hdispatching.symm.trans hstopped

theorem Submission.step_state (b : Background) (s : Submission) :
    (s.step b).2.queue.state = b.queue.state := by
  cases s with
  | counted r depth =>
      rcases b.queue.trySend_cases r with ⟨-, -, hsend⟩ | ⟨reason, hsend, -⟩
      · simp only [step, hsend]
      · simp only [step, hsend]
  | weighed r reason total last =>
      simp only [step]
      split <;> rfl
  | _ => rfl

namespace Closing

variable {a a' : Closing}

/-- The state of a log is `stopped` as soon as a call has returned and while no other is between
the two times at which it sets the state. -/
def Labelled (a : Closing) : Prop :=
  (∃ sh ∈ a.calls, sh.isOver = true) → (∀ sh ∈ a.calls, sh.isStopping = false)
    → a.log.queue.state = .stopped

/-- What is in a list is in it after another element was put at a position, unless it was
there. -/
theorem mem_set_of_mem {α : Type} {l : List α} {k : Nat} {x y z : α} (hk : l[k]? = some x)
    (hmem : z ∈ l) : z = x ∨ z ∈ l.set k y := by
  obtain ⟨i, hi⟩ := List.mem_iff_getElem?.mp hmem
  by_cases hik : k = i
  · subst hik
    exact Or.inl (Option.some.inj (hi.symm.trans hk))
  · refine Or.inr (List.mem_iff_getElem?.mpr ⟨i, ?_⟩)
    rwa [List.getElem?_set_ne hik]

theorem step_labelled (h : a.Labelled) (hstep : Step a a') : a'.Labelled := by
  intro hover hnone
  cases hstep with
  | submit hs hbusy =>
      rename_i k s
      exact (s.step_state a.log).trans (h hover hnone)
  | work hb => exact Background.work_state hb (h hover hnone)
  | outlive hb =>
      rename_i b
      obtain ⟨detached, hqueue⟩ := Background.workDetached_queue hb
      show b.queue.state = _
      rw [hqueue]
      exact h hover hnone
  | shutdown expired hcall hs =>
      rename_i b k sh sh'
      have hset := hnone sh' (List.mem_set (List.getElem?_eq_some_iff.mp hcall).1 _)
      cases Shutdown.step_stopped hs with
      | closes hb =>
          subst hb
          -- neither before nor after this step is the call one of those that set the state
          obtain ⟨other, hmem, hisOver⟩ := hover
          refine h ⟨other, ?_, hisOver⟩ fun other hmem => ?_
          · rcases List.mem_or_eq_of_mem_set hmem with hold | rfl
            · exact hold
            · cases hisOver
          · rcases mem_set_of_mem (y := .closed) hcall hmem with rfl | hstays
            · rfl
            · exact hnone other hstays
      | ends hb =>
          subst hb
          rfl
      | _ => cases hset
  | lapse hcall hworker =>
      rename_i k
      have hk := (List.getElem?_eq_some_iff.mp hcall).1
      exact absurd (hnone (.ending false) (List.mem_set hk _)) (by simp [Shutdown.isStopping])

theorem start_labelled (j : Journal) (q : Queue) (records : List Record) (calls : Nat) :
    (start j q records calls).Labelled := by
  rintro ⟨sh, hmem, hover⟩
  obtain rfl := List.eq_of_mem_replicate hmem
  cases hover

theorem run_labelled (h : a.Labelled) (hrun : Run a a') : a'.Labelled := by
  induction hrun with
  | refl => exact h
  | tail hrun hstep ih => exact step_labelled ih hstep

/-- A log that was stopped stays so until a call tells it to drain. -/
theorem step_state (hstep : Step a a') (hstopped : a.log.queue.state = .stopped) :
    a'.log.queue.state = .stopped
      ∨ ∃ i : Nat, a.calls[i]? = some .closed ∧ a'.calls[i]? = some .draining := by
  cases hstep with
  | submit hs hbusy =>
      rename_i k s
      exact Or.inl ((s.step_state a.log).trans hstopped)
  | work hb => exact Or.inl (Background.work_state hb hstopped)
  | outlive hb =>
      rename_i b
      obtain ⟨detached, hqueue⟩ := Background.workDetached_queue hb
      refine Or.inl ?_
      show b.queue.state = _
      rw [hqueue]
      exact hstopped
  | shutdown expired hcall hs =>
      rename_i b k sh sh'
      cases Shutdown.step_stopped hs with
      | closes hb => subst hb; exact Or.inl hstopped
      | drains hb =>
          exact Or.inr ⟨k, hcall, List.getElem?_set_self (List.getElem?_eq_some_iff.mp hcall).1⟩
      | waits hhandle hb => subst hb; exact Or.inl hstopped
      | skips hhandle hb => subst hb; exact Or.inl hstopped
      | sees hworker hb => subst hb; exact Or.inl hstopped
      | aborts habort =>
          refine Or.inl ?_
          show b.queue.state = _
          rw [(Background.abort?_eq habort).2, Background.dropAll_queue]
          exact hstopped
      | ends hb => subst hb; exact Or.inl rfl
  | lapse hcall hworker => exact Or.inl hstopped

/-- A call that has returned stays as it is. -/
theorem step_over {k : Nat} {drained : Bool} (hstep : Step a a')
    (hk : a.calls[k]? = some (.ended drained)) : a'.calls[k]? = some (.ended drained) := by
  have hother {i : Nat} {sh sh' : Shutdown} (hcall : a.calls[i]? = some sh)
      (hgoes : sh ≠ .ended drained) : (a.calls.set i sh')[k]? = some (.ended drained) := by
    rw [List.getElem?_set_ne, hk]
    rintro rfl
    exact hgoes (Option.some.inj (hcall.symm.trans hk))
  cases hstep with
  | submit hs hbusy => exact hk
  | work hb => exact hk
  | outlive hb => exact hk
  | shutdown expired hcall hs =>
      refine hother hcall ?_
      rintro rfl
      cases hs
  | lapse hcall hworker => exact hother hcall nofun

/-! ## §4. What an answer tells. -/

variable {n : Nat} {records done discarded : List Record} {lead : Shutdown}

/-- The log is done with all that it accepted: nothing waits, each accepted record was handed to
every sink, in order, and was then delivered, and nothing was dropped but what was refused. -/
structure Drained (sinks : Nat) (a : Closing) : Prop where
  empty : a.log.queue.channel = []
  delivered : a.log.journal.marks = a.accepted.flatMap (Record.marks · sinks)
  kept : (a.log.journal.drops
      ++ (a.submissions.flatMap Submission.leaving).flatMap Record.owes).Perm
    (a.refused.flatMap Record.owes)

/-- All that was accepted is dispatched where no record is in the queue and none was
discarded. -/
theorem dispatched_iff (h : (a.seen lead).Accounts n records done discarded) :
    a.accepted = done ↔ a.log.queue.records = [] ∧ discarded = [] := by
  have horder : a.accepted = done ++ (a.log.queue.records ++ discarded) := by
    unfold Queue.records
    rw [List.append_assoc]
    exact h.order
  rw [horder]
  simp

/-- A log that has dispatched all that it accepted is drained. -/
theorem drained_of_dispatched (h : (a.seen lead).Accounts n records done discarded)
    (hall : a.accepted = done) : a.Drained n := by
  obtain ⟨hrecords, hkept⟩ := (dispatched_iff h).mp hall
  obtain ⟨hhand, hchannel⟩ := List.append_eq_nil_iff.mp hrecords
  -- a dispatch under way would be one of a record in hand
  have hjobs : a.log.queue.jobs = [] := by
    refine List.eq_nil_iff_forall_not_mem.mpr fun job hmem => ?_
    have hrecord : job.record ∈ a.log.queue.inHand := h.underWay.2 job hmem
    rw [hhand] at hrecord
    cases hrecord
  refine ⟨hchannel, ?_, ?_⟩
  · have hmarks : a.log.journal.marks = done.flatMap (Record.marks · n)
        ++ a.log.queue.jobs.flatMap (Job.marks n) := h.marks
    rw [hmarks, hjobs, hall]
    exact List.append_nil _
  · have hdrops := h.drops
    rwa [hkept, List.append_nil] at hdrops

/-- What is known once call `k` has answered `true`, for a number of sinks. -/
structure Answered (sinks : Nat) (records : List Record) (a : Closing) (k : Nat) : Prop where
  /-- Nothing is accepted any more, and the answer stands. -/
  closed : a.log.queue.accepting = false
  lasts : ∀ a', Step a a' → a'.calls[k]? = some (.ended true)
  /-- The records are where the taker has them.  All that was accepted is dispatched just where
  the queue has no record and the taker discarded none; and that is so if call `k` is the taker,
  or if the taker found the queue empty as well. -/
  taken : ∃ taker lead dispatched discarded, a.taker = some taker ∧ a.calls[taker]? = some lead
    ∧ (a.seen lead).Outcome sinks records dispatched discarded
    ∧ (a.accepted = dispatched ↔ a.log.queue.records = [] ∧ discarded = [])
    ∧ (a.accepted = dispatched → a.Drained sinks)
    ∧ (taker = k ∨ lead.finding = some true → a.accepted = dispatched)
  /-- The log says that it was stopped, unless another call is between the two times at which it
  sets the state; and it says so until another call does that. -/
  state : (∀ sh ∈ a.calls, sh.isStopping = false) → a.log.queue.state = .stopped
  stays : a.log.queue.state = .stopped → ∀ a', Step a a' → a'.log.queue.state = .stopped
    ∨ ∃ i : Nat, a.calls[i]? = some .closed ∧ a'.calls[i]? = some .draining

/-- **What is behind an answer of `true`**, whatever the capacity, the records, the sinks and the
calls, in every order of steps.  The call that took the handle of the worker has seen it leave an
empty queue; any other call did not look. -/
theorem answered_true {capacity warnEvery : Nat} {q : Queue}
    (hq : Queue.ofCapacity? capacity warnEvery = some q) {j : Journal} (hj : j.history = [])
    (records : List Record) (calls : Nat) (a : Closing)
    (hrun : Run (start j q records calls) a) {k : Nat} (hk : a.calls[k]? = some (.ended true)) :
    a.Answered j.delegate.sinks.length records k := by
  obtain ⟨lead, hled, dispatched, discarded, h⟩ :=
    run_seen (P := fun s => ∃ done discarded,
        s.Accounts j.delegate.sinks.length records done discarded)
      ⟨[], [], Logging.start_accounts hq hj records⟩ (fun s ⟨_, _, h⟩ => h.guarded)
      (fun s s' ⟨_, _, h⟩ hstep => Logging.step_accounts h hstep)
      (fun s state ⟨done, discarded, h⟩ => ⟨done, discarded, h.withState state⟩) hrun
  cases hled with
  | untaken _ hearly hall =>
      -- no call returns before the handle is taken
      exact absurd (Nat.lt_of_le_of_lt (hall _ (List.mem_of_getElem? hk)) hearly)
        (by simp [Shutdown.stage])
  | taken htaker hlead hlate hhandle halone =>
      rename_i taker
      have hstarted : lead ≠ .begun := by
        rintro rfl
        exact absurd hlate (by decide)
      refine ⟨h.closed hstarted, fun a' hstep => step_over hstep hk,
        ⟨taker, lead, dispatched, discarded, htaker, hlead, h.outcome, dispatched_iff h,
          drained_of_dispatched h, ?_⟩,
        run_labelled (start_labelled j q records calls) hrun
          ⟨_, List.mem_of_getElem? hk, rfl⟩,
        fun hstopped a' hstep => step_state hstep hstopped⟩
      rintro (rfl | hfinding)
      · obtain rfl := Option.some.inj (hk.symm.trans hlead)
        exact h.outcome.drained rfl
      · exact h.outcome.drained hfinding

/-- The same of one record and one call: the call finds the record delivered. -/
theorem answered_true_of_delivered :
    let j : Journal := ⟨⟨.ofDirectories [["b"]] [], ⟨true, .ofText "/b", 4, .both ∅⟩, .zero⟩,
      ⟨[.events], [], .idle, 0⟩, []⟩
    let r : Record :=
      { Record.new ⟨"x"⟩ "GET" "/" ⟨0, 0⟩ with finalizer := some .announce }
    ∃ q a, Queue.ofCapacity? 1 1 = some q ∧ Run (start j q [r] 1) a
      ∧ a.calls[0]? = some (.ended true) ∧ a.accepted = [r] ∧ a.Answered 1 [r] 0 := by
  intro j r
  have hq : Queue.ofCapacity? 1 1
      = some ⟨1, 1, 0, true, [], ⟨0, 0, 0, 0, 0⟩, .idle, .waiting, true, []⟩ := rfl
  have hsubmit : ∃ a, Run (start j ⟨1, 1, 0, true, [], ⟨0, 0, 0, 0, 0⟩, .idle, .waiting, true, []⟩
      [r] 1) a ∧ a.calls[0]? = some (.ended true) ∧ a.accepted = [r] :=
    ⟨_, .tail (.tail (.tail (.tail (.tail (.tail (.tail (.tail (.tail (.tail (.tail (.tail (.tail
      (.tail (.tail (.tail (.tail .refl
      (.submit (k := 0) rfl nofun)) (.submit (k := 0) rfl nofun)) (.submit (k := 0) rfl nofun))
      (.work rfl)) (.work rfl)) (.work rfl)) (.work rfl)) (.work rfl)) (.work rfl)) (.work rfl))
      (.work rfl)) (.shutdown (k := 0) false rfl rfl)) (.shutdown (k := 0) false rfl rfl))
      (.shutdown (k := 0) false rfl rfl)) (.work rfl)) (.shutdown (k := 0) false rfl rfl))
      (.shutdown (k := 0) false rfl rfl), rfl, rfl⟩
  obtain ⟨a, hrun, hk, haccepted⟩ := hsubmit
  exact ⟨_, a, hq, hrun, hk, haccepted, answered_true hq rfl _ 1 a hrun hk⟩

/-- Of two calls, one behind the other, the first takes the handle and gives up at once: it
answers `false`, and the record in the channel is dropped.  The second finds no handle and
answers `true`. -/
theorem true_answer_without_wait :
    let j : Journal := ⟨⟨.ofDirectories [["b"]] [], ⟨true, .ofText "/b", 4, .both ∅⟩, .zero⟩,
      ⟨[.events], [], .idle, 0⟩, []⟩
    let r : Record :=
      { Record.new ⟨"x"⟩ "GET" "/" ⟨0, 0⟩ with finalizer := some .announce }
    ∃ q a, Queue.ofCapacity? 1 1 = some q ∧ Run (start j q [r] 2) a
      ∧ a.calls[0]? = some (.ended false) ∧ a.calls[1]? = some (.ended true)
      ∧ a.accepted = [r] ∧ a.log.journal.marks = []
      ∧ a.log.journal.drops = [(⟨"x"⟩, .announce)] ∧ ¬ a.Drained 1 := by
  intro j r
  have hrun : ∃ a, Run (start j ⟨1, 1, 0, true, [], ⟨0, 0, 0, 0, 0⟩, .idle, .waiting, true, []⟩
      [r] 2) a ∧ a.calls[0]? = some (.ended false) ∧ a.calls[1]? = some (.ended true)
        ∧ a.accepted = [r] ∧ a.log.journal.marks = []
        ∧ a.log.journal.drops = [(⟨"x"⟩, .announce)] :=
    ⟨_, .tail (.tail (.tail (.tail (.tail (.tail (.tail (.tail (.tail (.tail (.tail (.tail .refl
      (.submit (k := 0) rfl nofun)) (.submit (k := 0) rfl nofun)) (.submit (k := 0) rfl nofun))
      (.shutdown (k := 0) true rfl rfl)) (.shutdown (k := 0) true rfl rfl))
      (.shutdown (k := 0) true rfl rfl)) (.shutdown (k := 0) true rfl rfl))
      (.shutdown (k := 0) true rfl rfl)) (.shutdown (k := 1) true rfl rfl))
      (.shutdown (k := 1) true rfl rfl)) (.shutdown (k := 1) true rfl rfl))
      (.shutdown (k := 1) true rfl rfl), rfl, rfl, rfl, rfl, rfl⟩
  obtain ⟨a, hrun, hfirst, hsecond, haccepted, hmarks, hdrops⟩ := hrun
  refine ⟨_, a, rfl, hrun, hfirst, hsecond, haccepted, hmarks, hdrops, fun hdrained => ?_⟩
  have hdelivered := hdrained.delivered
  rw [hmarks, haccepted] at hdelivered
  cases hdelivered

end Closing

end Wiretap
