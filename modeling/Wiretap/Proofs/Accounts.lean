/-
  Wiretap.Proofs.Accounts
  ───────────────────────
  **NO RECORD IS LOST, NONE IS TAKEN TWICE.**

  Any number of parties submit records to a log in the background, its worker and a shutdown
  take their steps, and all of this in any order (`Logging.Step`).  Where each record is, and
  what was done to it, is kept in accounts that every step balances (`Logging.Accounts`):

      submitted  =  undecided + accepted + refused
      accepted   =  dispatched ++ in hand ++ in the channel ++ discarded   (in this order)
      marks      =  those of the dispatched, and of the dispatch that is under way
      drops      =  the refused that were let go of, and the discarded

    • `Logging.start_accounts` — the accounts are balanced at the start,
    • `Logging.step_accounts`  — and every step keeps them.
-/
import Mathlib.Data.List.Perm.Basic
import Mathlib.Logic.Relation
import Wiretap.Proofs.Steps

namespace Wiretap

/-! ## §1. Several parties at one log. -/

/-- A log in the background with those who submit records to it and its shutdown. -/
structure Logging where
  log : Background
  submissions : List Submission
  shutdown : Shutdown
  /-- The records that were put into the channel so far, in order. -/
  accepted : List Record
  /-- The records that were turned away so far. -/
  refused : List Record

namespace Logging

/-- Everybody is about to submit a record, and nothing was done yet. -/
def start (j : Journal) (q : Queue) (records : List Record) : Logging :=
  ⟨⟨j, q⟩, records.map .fresh, .begun, [], []⟩

/-- A step of one of the parties. -/
inductive Step : Logging → Logging → Prop
  | submit {a : Logging} {k : Nat} {s : Submission} (hs : a.submissions[k]? = some s)
      (hbusy : s ≠ .done) :
      Step a
        { a with
          log := (s.step a.log).2
          submissions := a.submissions.set k (s.step a.log).1
          accepted := a.accepted ++ s.taken a.log
          refused := a.refused ++ s.turnedAway a.log }
  | work {a : Logging} {b : Background} (h : a.log.work = some b) : Step a { a with log := b }
  | outlive {a : Logging} {b : Background} (h : a.log.workDetached = some b) :
      Step a { a with log := b }
  | shutdown {a : Logging} {b : Background} {sh : Shutdown} (expired : Bool)
      (h : a.shutdown.step a.log expired = some (sh, b)) :
      Step a { a with log := b, shutdown := sh }
  /-- The worker left between the end of the time to wait and the stop by force. -/
  | lapse {a : Logging} (hwaiting : a.shutdown = .waiting)
      (hworker : a.log.queue.worker = .exited) : Step a { a with shutdown := .ending false }

/-- A run of any number of steps. -/
abbrev Run : Logging → Logging → Prop := Relation.ReflTransGen Step

/-- Records that have not ended. -/
def inFlight (a : Logging) : List Record :=
  a.submissions.flatMap Submission.records ++ a.log.queue.records

/-- Whether nobody but the shutdown has anything to do. -/
structure Quiet (a : Logging) : Prop where
  submissions : ∀ s ∈ a.submissions, s = .done
  work : a.log.work = none
  outlive : a.log.workDetached = none

end Logging

/-- What a shutdown has found out: whether the queue was emptied. -/
def Shutdown.finding : Shutdown → Option Bool
  | .ending drained => some drained
  | .ended drained => some drained
  | _ => none

/-- Putting another element at a position. -/
theorem flatMap_set_perm {α β : Type} {l : List α} {k : Nat} {x : α} (h : l[k]? = some x) (y : α)
    (f : α → List β) :
    ∃ rest, (l.flatMap f).Perm (f x ++ rest) ∧ ((l.set k y).flatMap f).Perm (f y ++ rest) := by
  obtain ⟨hk, rfl⟩ := List.getElem?_eq_some_iff.mp h
  -- what stands elsewhere is the list without that element, before and after
  refine ⟨(l.eraseIdx k).flatMap f, ?_, ?_⟩
  · exact (List.getElem_cons_eraseIdx_perm hk).symm.flatMap_right f
  · have hset : k < (l.set k y).length := by rwa [List.length_set]
    have hperm := (List.getElem_cons_eraseIdx_perm hset).symm.flatMap_right f
    rwa [List.getElem_set_self, List.eraseIdx_set_eq] at hperm

/-! ## §2. The accounts. -/

namespace Logging

variable {a a' : Logging} {b : Background} {n : Nat} {records done discarded : List Record}

/-- Where each of the records is, and what was done to it. -/
structure Accounts (n : Nat) (records : List Record) (a : Logging)
    (done discarded : List Record) : Prop where
  sinks : a.log.journal.delegate.sinks.length = n
  /-- Each record is still undecided, was accepted, or was refused. -/
  submitted :
    (a.submissions.flatMap Submission.undecided ++ (a.accepted ++ a.refused)).Perm records
  /-- The accepted records are dispatched in the order in which they were accepted. -/
  order : a.accepted
    = done ++ (a.log.queue.inHand ++ (a.log.queue.channel ++ discarded))
  /-- The sinks have seen these records, one after the other, and nothing else. -/
  marks : a.log.journal.marks
    = done.flatMap (Record.marks · n) ++ a.log.queue.jobs.flatMap (Job.marks n)
  within : ∀ job ∈ a.log.queue.jobs, job.Within n
  /-- The refused records are dropped before their submissions are over, and the discarded
  ones as well. -/
  drops : (a.log.journal.drops
      ++ (a.submissions.flatMap Submission.leaving).flatMap Record.owes).Perm
    ((a.refused ++ discarded).flatMap Record.owes)
  /-- Only what a stopped worker leaves behind is discarded. -/
  live : a.log.queue.worker ≠ .aborted → a.log.queue.detached = [] ∧ discarded = []
  single : a.log.queue.detached.length ≤ 1
  gone : a.log.queue.worker.IsGone →
    a.log.queue.channel = [] ∧ a.log.queue.accepting = false
  closed : a.shutdown ≠ .begun → a.log.queue.accepting = false
  handle : a.shutdown = .begun ∨ a.shutdown = .closed ∨ a.shutdown = .draining →
    a.log.queue.hasHandle = true
  drained : a.shutdown.finding = some true → a.log.queue.worker = .exited
  expired : a.shutdown.finding = some false → a.log.queue.worker.IsGone
  forced : a.log.queue.worker = .aborted → a.shutdown.finding = some false

/-- A steady step keeps the accounts, also where it moves the worker, if the worker keeps its
record and its jobs keep their marks. -/
theorem Accounts.steady (h : a.Accounts n records done discarded) (hsteady : a.log.Steady b)
    (hrecords : b.queue.worker.records = a.log.queue.worker.records)
    (hjobs : b.queue.worker.jobs.flatMap (Job.marks n)
      = a.log.queue.worker.jobs.flatMap (Job.marks n))
    (hwithin : ∀ job ∈ b.queue.worker.jobs, job.Within n)
    (hexited : b.queue.worker = .exited ↔ a.log.queue.worker = .exited)
    (haborted : b.queue.worker = .aborted ↔ a.log.queue.worker = .aborted) :
    Accounts n records { a with log := b } done discarded := by
  have hhand : b.queue.inHand = a.log.queue.inHand := by
    unfold Queue.inHand
    rw [hrecords, hsteady.detached]
  constructor
  case sinks => exact hsteady.silent.beside.sinks_length.trans h.sinks
  case submitted => exact h.submitted
  case order =>
    show a.accepted = _
    rw [hhand, hsteady.channel]
    exact h.order
  case marks =>
    show b.journal.marks = _ ++ (b.queue.worker.jobs ++ b.queue.detached).flatMap _
    rw [hsteady.silent.marks, h.marks, List.flatMap_append, hjobs, hsteady.detached,
      ← List.flatMap_append]
    rfl
  case within =>
    intro job hmem
    rcases List.mem_append.mp hmem with hmem | hmem
    · exact hwithin job hmem
    · rw [hsteady.detached] at hmem
      exact h.within job (List.mem_append_right _ hmem)
  case drops =>
    show (b.journal.drops ++ _).Perm _
    rw [hsteady.silent.drops]
    exact h.drops
  case live =>
    intro hlive
    rw [hsteady.detached]
    exact h.live fun hstopped => hlive (haborted.mpr hstopped)
  case single =>
    show b.queue.detached.length ≤ 1
    rw [hsteady.detached]
    exact h.single
  case gone =>
    intro hgone
    rw [hsteady.channel, hsteady.accepting]
    exact h.gone (hgone.imp hexited.mp haborted.mp)
  case closed =>
    intro hbegun
    rw [hsteady.accepting]
    exact h.closed hbegun
  case handle =>
    intro hearly
    rw [hsteady.hasHandle]
    exact h.handle hearly
  case drained => exact fun hfinding => hexited.mpr (h.drained hfinding)
  case expired => exact fun hfinding => (h.expired hfinding).imp hexited.mpr haborted.mpr
  case forced => exact fun hforced => h.forced (haborted.mp hforced)

/-- A step of a submission keeps the accounts. -/
theorem Accounts.submit (h : a.Accounts n records done discarded) {k : Nat} {s : Submission}
    (hs : a.submissions[k]? = some s) :
    Accounts n records
      { a with
        log := (s.step a.log).2
        submissions := a.submissions.set k (s.step a.log).1
        accepted := a.accepted ++ s.taken a.log
        refused := a.refused ++ s.turnedAway a.log } done discarded := by
  have hmoved := s.step_moved a.log
  generalize (s.step a.log).1 = s' at hmoved ⊢
  generalize (s.step a.log).2 = b at hmoved ⊢
  -- the record of the submission is decided at most once
  have hsubmitted : ((a.submissions.set k s').flatMap Submission.undecided
      ++ ((a.accepted ++ s.taken a.log) ++ (a.refused ++ s.turnedAway a.log))).Perm records := by
    obtain ⟨rest, hu, hu'⟩ := flatMap_set_perm hs s' Submission.undecided
    have hbefore := h.submitted
    rw [hmoved.undecided] at hu
    rw [List.perm_iff_count] at hbefore hu hu' ⊢
    intro r
    have hr := hbefore r
    have hur := hu r
    have hur' := hu' r
    simp only [List.count_append] at hr hur hur' ⊢
    omega
  -- what it turns away is dropped, or to be dropped, by itself
  have hdrops : (b.journal.drops
      ++ ((a.submissions.set k s').flatMap Submission.leaving).flatMap Record.owes).Perm
      (((a.refused ++ s.turnedAway a.log) ++ discarded).flatMap Record.owes) := by
    obtain ⟨rest, hl, hl'⟩ := flatMap_set_perm hs s' Submission.leaving
    have hbefore := h.drops
    have hleaving := hmoved.drops
    have howed := hl.flatMap_right Record.owes
    have howed' := hl'.flatMap_right Record.owes
    rw [List.perm_iff_count] at hbefore howed howed' ⊢
    intro o
    have ho := hbefore o
    have hlo := howed o
    have hlo' := howed' o
    have hmo := congrArg (List.count o) hleaving
    simp only [List.count_append, List.flatMap_append] at ho hlo hlo' hmo ⊢
    omega
  cases hmoved with
  | steady hundecided hleaving htaken hsteady hworker =>
      have hlog := h.steady hsteady (by rw [hworker]) (by rw [hworker])
        (fun job hmem => h.within job (List.mem_append_left _ (by rwa [hworker] at hmem)))
        (by rw [hworker]) (by rw [hworker])
      refine { hlog with submitted := hsubmitted, drops := hdrops, order := ?_ }
      rw [htaken.1, List.append_nil]
      exact hlog.order
  | accepts hopen htaken hb =>
      rename_i r depth
      subst hb
      -- while the channel is open, the worker is there and nothing was discarded
      have hworks : ¬ a.log.queue.worker.IsGone :=
        fun hgone => absurd (h.gone hgone).2 (by simp [hopen])
      have hnone := (h.live fun hstopped => hworks (Or.inr hstopped)).2
      refine { h with submitted := hsubmitted, drops := hdrops, order := ?_, gone := ?_ }
      · show a.accepted ++ Submission.taken a.log (.counted r depth) = done
          ++ (a.log.queue.inHand ++ ((a.log.queue.channel ++ [r]) ++ discarded))
        rw [htaken.1, h.order, hnone]
        simp only [List.append_assoc, List.append_nil]
      · exact fun hgone => absurd hgone hworks
  | refuses htaken hb =>
      subst hb
      refine { h with submitted := hsubmitted, drops := hdrops, order := ?_ }
      rw [htaken.1, List.append_nil]
      exact h.order
  | releases hb =>
      rename_i r
      subst hb
      refine { h with submitted := hsubmitted, drops := hdrops, sinks := ?_, order := ?_,
                      marks := ?_ }
      · show (a.log.journal.finish r .dropped).1.delegate.sinks.length = n
        rw [Journal.finish_delegate]
        exact h.sinks
      · exact (List.append_nil _).trans h.order
      · exact (a.log.journal.finish_dropped r).1.trans h.marks

/-- While the worker is there, it alone has records out of the channel. -/
theorem Accounts.balance (h : a.Accounts n records done discarded)
    (hstays : ¬ a.log.queue.worker.IsGone) :
    (a.log.queue.detached = [] ∧ discarded = [])
      ∧ a.accepted = done ++ (a.log.queue.worker.records ++ a.log.queue.channel)
      ∧ a.log.journal.marks
        = done.flatMap (Record.marks · n) ++ a.log.queue.worker.jobs.flatMap (Job.marks n) := by
  obtain ⟨hnone, hkept⟩ := h.live fun hstopped => hstays (Or.inr hstopped)
  have horder : a.accepted = done ++ ((a.log.queue.worker.records
      ++ a.log.queue.detached.map Job.record) ++ (a.log.queue.channel ++ discarded)) := h.order
  have hmarks : a.log.journal.marks = done.flatMap (Record.marks · n)
      ++ (a.log.queue.worker.jobs ++ a.log.queue.detached).flatMap (Job.marks n) := h.marks
  rw [hnone, hkept, List.map_nil, List.append_nil, List.append_nil] at horder
  rw [hnone, List.append_nil] at hmarks
  exact ⟨⟨hnone, hkept⟩, horder, hmarks⟩

/-- A step of a worker that stays keeps the accounts, if it keeps their balance. -/
theorem Accounts.stays (h : a.Accounts n records done discarded)
    (hstays : ¬ a.log.queue.worker.IsGone) (hstays' : ¬ b.queue.worker.IsGone)
    (hdetached : b.queue.detached = a.log.queue.detached)
    (haccepting : b.queue.accepting = a.log.queue.accepting)
    (hhandle : b.queue.hasHandle = a.log.queue.hasHandle)
    (hsinks : b.journal.delegate.sinks.length = n)
    (hdrops : b.journal.drops = a.log.journal.drops) {done' : List Record}
    (horder : a.accepted = done' ++ (b.queue.worker.records ++ b.queue.channel))
    (hmarks : b.journal.marks
      = done'.flatMap (Record.marks · n) ++ b.queue.worker.jobs.flatMap (Job.marks n))
    (hwithin : ∀ job ∈ b.queue.worker.jobs, job.Within n) :
    Accounts n records { a with log := b } done' discarded := by
  obtain ⟨⟨hnone, hkept⟩, -⟩ := h.balance hstays
  rw [hnone] at hdetached
  constructor
  case sinks => exact hsinks
  case submitted => exact h.submitted
  case order =>
    show a.accepted = done' ++ ((b.queue.worker.records ++ b.queue.detached.map Job.record)
      ++ (b.queue.channel ++ discarded))
    rw [horder, hdetached, hkept, List.map_nil, List.append_nil, List.append_nil]
  case marks =>
    show b.journal.marks = _ ++ (b.queue.worker.jobs ++ b.queue.detached).flatMap _
    rw [hmarks, hdetached, List.append_nil]
  case within =>
    intro job hmem
    have hjob : job ∈ b.queue.worker.jobs ++ b.queue.detached := hmem
    rw [hdetached, List.append_nil] at hjob
    exact hwithin job hjob
  case drops =>
    show (b.journal.drops ++ _).Perm _
    rw [hdrops]
    exact h.drops
  case live => exact fun _ => ⟨hdetached, hkept⟩
  case single =>
    show b.queue.detached.length ≤ 1
    rw [hdetached]
    exact Nat.zero_le 1
  case gone => exact fun hgone => absurd hgone hstays'
  case closed =>
    intro hbegun
    rw [haccepting]
    exact h.closed hbegun
  case handle =>
    intro hearly
    rw [hhandle]
    exact h.handle hearly
  case drained => exact fun hfinding => absurd (Or.inl (h.drained hfinding)) hstays
  case expired => exact fun hfinding => absurd (h.expired hfinding) hstays
  case forced => exact fun hforced => absurd (Or.inr hforced) hstays'

/-- The worker leaves once nobody can send any more and the channel is empty. -/
theorem Accounts.leaves (h : a.Accounts n records done discarded)
    (hworker : a.log.queue.worker = .waiting) (hchannel : a.log.queue.channel = [])
    (hclosed : a.log.queue.accepting = false)
    (hqueue : b.queue = { a.log.queue with worker := .exited })
    (hjournal : b.journal = a.log.journal) :
    Accounts n records { a with log := b } done discarded := by
  obtain ⟨⟨hnone, hkept⟩, horder, hmarks⟩ := h.balance (by simp [hworker, Worker.IsGone])
  rw [hworker] at horder hmarks
  constructor
  case sinks => rw [hjournal, h.sinks]
  case submitted => exact h.submitted
  case order =>
    simp only [Queue.inHand, hqueue]
    rw [horder, hnone, hkept, hchannel]
    rfl
  case marks =>
    simp only [Queue.jobs, hqueue, hjournal]
    rw [hmarks, hnone]
    rfl
  case within =>
    intro job hmem
    simp [Queue.jobs, hqueue, hnone, Worker.jobs] at hmem
  case drops => rw [hjournal]; exact h.drops
  case live => exact fun _ => ⟨by rw [hqueue, hnone], hkept⟩
  case single => rw [hqueue]; exact h.single
  case gone => rw [hqueue]; exact fun _ => ⟨hchannel, hclosed⟩
  case closed => rw [hqueue]; exact h.closed
  case handle => rw [hqueue]; exact h.handle
  case drained => rw [hqueue]; exact fun _ => rfl
  case expired => rw [hqueue]; exact fun _ => Or.inl rfl
  case forced => rw [hqueue]; intro hforced; cases hforced

/-- A step of the worker keeps the accounts; the last one of a dispatch adds its record to the
dispatched ones. -/
theorem Accounts.work (h : a.Accounts n records done discarded) (hb : a.log.work = some b) :
    ∃ done', Accounts n records { a with log := b } done' discarded := by
  -- a dispatch of the worker is the only one, so the marks end in its own
  have hdispatch (job : Job) (hworker : a.log.queue.worker = .dispatching job) :
      ¬ a.log.queue.worker.IsGone ∧ job.Within a.log.journal.delegate.sinks.length
        ∧ a.log.journal.marks = done.flatMap (Record.marks · n)
          ++ job.marks a.log.journal.delegate.sinks.length := by
    have hstays : ¬ a.log.queue.worker.IsGone := by simp [hworker, Worker.IsGone]
    obtain ⟨-, -, hmarks⟩ := h.balance hstays
    have hjob : job ∈ a.log.queue.jobs := by
      unfold Queue.jobs
      rw [hworker]
      exact List.mem_cons_self
    rw [hworker] at hmarks
    rw [h.sinks]
    exact ⟨hstays, h.within job hjob, hmarks.trans (congrArg _ (List.append_nil _))⟩
  cases Background.work_worked hb with
  | receives hworker hchannel hqueue hjournal =>
      rename_i r rest
      have hstays : ¬ a.log.queue.worker.IsGone := by simp [hworker, Worker.IsGone]
      obtain ⟨-, horder, hmarks⟩ := h.balance hstays
      rw [hworker] at horder hmarks
      refine ⟨done, h.stays hstays (by simp [hqueue, Worker.IsGone]) (by rw [hqueue])
        (by rw [hqueue]) (by rw [hqueue]) (by rw [hjournal, h.sinks]) (by rw [hjournal]) ?_ ?_
        (by simp [hqueue, Worker.jobs])⟩
      · rw [hqueue, horder, hchannel]
        rfl
      · rw [hqueue, hjournal, hmarks]
        rfl
  | leaves hworker hchannel hclosed hqueue hjournal =>
      exact ⟨done, h.leaves hworker hchannel hclosed hqueue hjournal⟩
  | prepares hworker hworker' hsteady =>
      refine ⟨done, h.steady hsteady ?_ ?_ (by simp [hworker', Worker.jobs]) ?_ ?_⟩
      · rw [hworker, hworker']
        rfl
      · rw [hworker, hworker']
        rfl
      · simp [hworker, hworker']
      · simp [hworker, hworker']
  | begins hworker hworker' hsteady =>
      refine ⟨done, h.steady hsteady ?_ ?_ (by simp [hworker', Worker.jobs, Job.Within]) ?_ ?_⟩
      · rw [hworker, hworker']
        rfl
      · rw [hworker, hworker']
        rfl
      · simp [hworker, hworker']
      · simp [hworker, hworker']
  | calls hworker hjob hqueue =>
      rename_i job next
      obtain ⟨hstays, hwithin, hmarks⟩ := hdispatch job hworker
      obtain ⟨-, horder, -⟩ := h.balance hstays
      obtain ⟨hnext, hdrops, hsinks⟩ := Journal.stepJob_marks _ hwithin hmarks
      rw [hjob] at hnext hdrops hsinks
      obtain ⟨hrecord, hwithin', hmarks'⟩ := hnext
      rw [h.sinks] at hwithin' hmarks' hsinks
      rw [hworker] at horder
      refine ⟨done, h.stays hstays (by simp [hqueue, Worker.IsGone]) (by rw [hqueue])
        (by rw [hqueue]) (by rw [hqueue]) hsinks hdrops ?_ ?_ ?_⟩
      · rw [hqueue, horder]
        show done ++ ([job.record] ++ _) = done ++ ([next.record] ++ _)
        rw [hrecord]
      · rw [hqueue, hmarks']
        exact congrArg _ (List.append_nil _).symm
      · rw [hqueue]
        intro job' hmem
        obtain rfl := List.mem_singleton.mp hmem
        exact hwithin'
  | returns hworker hjob hqueue =>
      rename_i job result
      obtain ⟨hstays, hwithin, hmarks⟩ := hdispatch job hworker
      obtain ⟨-, horder, -⟩ := h.balance hstays
      obtain ⟨hmarks', hdrops, hsinks⟩ := Journal.stepJob_marks _ hwithin hmarks
      rw [hjob] at hmarks' hdrops hsinks
      rw [h.sinks] at hmarks' hsinks
      rw [hworker] at horder
      refine ⟨done ++ [job.record], h.stays hstays (by simp [hqueue, Worker.IsGone])
        (by rw [hqueue]) (by rw [hqueue]) (by rw [hqueue]) hsinks hdrops ?_ ?_
        (by simp [hqueue, Worker.jobs])⟩
      · rw [hqueue, horder, List.append_assoc]
        rfl
      · rw [hqueue, hmarks', List.flatMap_append]
        simp only [Worker.jobs, List.flatMap_cons, List.flatMap_nil, List.append_nil]
  | counts hworker hworker' hsteady =>
      refine ⟨done, h.steady hsteady ?_ ?_ (by simp [hworker', Worker.jobs]) ?_ ?_⟩
      · rw [hworker, hworker']
        rfl
      · rw [hworker, hworker']
        rfl
      · simp [hworker, hworker']
      · simp [hworker, hworker']
  | rests hworker hworker' hsteady =>
      refine ⟨done, h.steady hsteady ?_ ?_ (by simp [hworker', Worker.jobs]) ?_ ?_⟩
      · rw [hworker, hworker']
        rfl
      · rw [hworker, hworker']
        rfl
      · simp [hworker, hworker']
      · simp [hworker, hworker']

/-- A dispatch that goes on without the worker keeps the accounts, if it keeps their
balance. -/
theorem Accounts.runsOn (h : a.Accounts n records done discarded)
    (hworker : a.log.queue.worker = .aborted) {detached : List Job}
    (hqueue : b.queue = { a.log.queue with detached }) (hsingle : detached.length ≤ 1)
    (hsinks : b.journal.delegate.sinks.length = n)
    (hdrops : b.journal.drops = a.log.journal.drops) {done' : List Record}
    (horder : a.accepted
      = done' ++ (detached.map Job.record ++ (a.log.queue.channel ++ discarded)))
    (hmarks : b.journal.marks
      = done'.flatMap (Record.marks · n) ++ detached.flatMap (Job.marks n))
    (hwithin : ∀ job ∈ detached, job.Within n) :
    Accounts n records { a with log := b } done' discarded := by
  constructor
  case sinks => exact hsinks
  case submitted => exact h.submitted
  case order =>
    simp only [Queue.inHand, hqueue, hworker]
    exact horder
  case marks =>
    simp only [Queue.jobs, hqueue, hworker]
    exact hmarks
  case within =>
    simp only [Queue.jobs, hqueue, hworker]
    exact hwithin
  case drops => rw [hdrops]; exact h.drops
  case live => rw [hqueue]; exact fun hlive => absurd hworker hlive
  case single => rw [hqueue]; exact hsingle
  case gone => rw [hqueue]; exact h.gone
  case closed => rw [hqueue]; exact h.closed
  case handle => rw [hqueue]; exact h.handle
  case drained => rw [hqueue]; exact h.drained
  case expired => rw [hqueue]; exact h.expired
  case forced => rw [hqueue]; exact h.forced

/-- A step of a dispatch that outlived the worker keeps the accounts. -/
theorem Accounts.outlive (h : a.Accounts n records done discarded)
    (hb : a.log.workDetached = some b) :
    ∃ done', Accounts n records { a with log := b } done' discarded := by
  -- such a dispatch is there only where the worker was stopped, and then it is the only one
  have hdetached {job : Job} {rest : List Job} (hjobs : a.log.queue.detached = job :: rest) :
      a.log.queue.worker = .aborted ∧ rest = [] := by
    have hsingle := h.single
    rw [hjobs, List.length_cons] at hsingle
    refine ⟨?_, List.length_eq_zero_iff.mp (by omega)⟩
    by_contra hlive
    rw [(h.live hlive).1] at hjobs
    cases hjobs
  have hbalance {job : Job} (hjobs : a.log.queue.detached = [job])
      (hworker : a.log.queue.worker = .aborted) :
      job.Within a.log.journal.delegate.sinks.length
        ∧ a.log.journal.marks = done.flatMap (Record.marks · n)
          ++ job.marks a.log.journal.delegate.sinks.length
        ∧ a.accepted = done ++ (job.record :: (a.log.queue.channel ++ discarded)) := by
    have horder := h.order
    have hmarks := h.marks
    have hwithin := h.within
    simp only [Queue.inHand, Queue.jobs, hworker, hjobs, Worker.records, Worker.jobs,
      List.nil_append, List.map_cons, List.map_nil, List.flatMap_cons, List.flatMap_nil,
      List.append_nil, List.mem_singleton] at horder hmarks hwithin
    rw [h.sinks]
    exact ⟨hwithin job rfl, hmarks, horder⟩
  cases Background.workDetached_outlived hb with
  | calls hjobs hjob hqueue =>
      rename_i job next rest
      obtain ⟨hworker, rfl⟩ := hdetached hjobs
      obtain ⟨hwithin, hmarks, horder⟩ := hbalance hjobs hworker
      obtain ⟨hnext, hdrops, hsinks⟩ := Journal.stepJob_marks _ hwithin hmarks
      rw [hjob] at hnext hdrops hsinks
      obtain ⟨hrecord, hwithin', hmarks'⟩ := hnext
      rw [h.sinks] at hwithin' hmarks' hsinks
      rw [← hrecord] at horder
      refine ⟨done, h.runsOn hworker hqueue (Nat.le_refl 1) hsinks hdrops horder ?_ ?_⟩
      · rw [hmarks']
        exact congrArg _ (List.append_nil _).symm
      · intro job' hmem
        obtain rfl := List.mem_singleton.mp hmem
        exact hwithin'
  | returns hjobs hjob hqueue =>
      rename_i job result rest
      obtain ⟨hworker, rfl⟩ := hdetached hjobs
      obtain ⟨hwithin, hmarks, horder⟩ := hbalance hjobs hworker
      obtain ⟨hmarks', hdrops, hsinks⟩ := Journal.stepJob_marks _ hwithin hmarks
      rw [hjob] at hmarks' hdrops hsinks
      rw [h.sinks] at hmarks' hsinks
      refine ⟨done ++ [job.record], h.runsOn hworker hqueue (Nat.zero_le 1) hsinks hdrops ?_ ?_
        (List.forall_mem_nil _)⟩
      · rw [horder, List.append_assoc]
        rfl
      · rw [hmarks', List.flatMap_append]
        simp only [List.flatMap_cons, List.flatMap_nil, List.append_nil]

/-- A worker that is stopped by force leaves at most one dispatch behind, and what is left in
the channel is discarded. -/
theorem Accounts.aborts (h : a.Accounts n records done discarded)
    (hwaiting : a.shutdown = .waiting) (habort : a.log.abort? = some b) :
    Accounts n records { a with log := b, shutdown := .ending false } done
      a.log.queue.channel := by
  obtain ⟨-, hb⟩ := Background.abort?_eq habort
  obtain ⟨hstays, hrecords, hsingle⟩ := Background.abort?_records habort
  obtain ⟨⟨hnone, hkept⟩, horder, hmarks⟩ := h.balance hstays
  rw [hnone, List.nil_append] at hb
  -- the dispatch goes on alone, and nothing is left in the channel
  have hqueue : b.queue = { a.log.queue with
      channel := [], worker := .aborted, detached := a.log.queue.worker.jobs } := by
    rw [hb, Background.dropAll_queue]
  obtain ⟨hmarks', hdrops', hdelegate⟩ := Background.dropAll_journal
    { a.log with queue := { a.log.queue with
        channel := [], worker := .aborted, detached := a.log.queue.worker.jobs } }
    a.log.queue.channel
  rw [← hb] at hmarks' hdrops' hdelegate
  constructor
  case sinks =>
    show b.journal.delegate.sinks.length = n
    rw [hdelegate]
    exact h.sinks
  case submitted => exact h.submitted
  case order =>
    simp only [Queue.inHand, hqueue, Worker.records, List.nil_append, hrecords]
    exact horder
  case marks =>
    simp only [Queue.jobs, hqueue, Worker.jobs, List.nil_append]
    exact hmarks'.trans hmarks
  case within =>
    simp only [Queue.jobs, hqueue, Worker.jobs, List.nil_append]
    exact fun job hmem => h.within job (List.mem_append_left _ hmem)
  case drops =>
    have hbefore := h.drops
    rw [hkept, List.append_nil] at hbefore
    show (b.journal.drops ++ (a.submissions.flatMap Submission.leaving).flatMap
      Record.owes).Perm ((a.refused ++ a.log.queue.channel).flatMap Record.owes)
    rw [hdrops', List.flatMap_append, List.append_assoc]
    exact ((List.perm_append_comm.append_left _).trans
      (List.append_assoc _ _ _ ▸ hbefore.append_right _))
  case live => rw [hqueue]; exact fun hlive => absurd rfl hlive
  case single => rw [hqueue]; exact hsingle
  case gone => rw [hqueue]; exact fun _ => ⟨rfl, h.closed (by simp [hwaiting])⟩
  case closed => rw [hqueue]; exact fun _ => h.closed (by simp [hwaiting])
  case handle =>
    intro hearly
    rcases hearly with hearly | hearly | hearly <;> cases hearly
  case drained => intro hfinding; cases hfinding
  case expired => rw [hqueue]; exact fun _ => Or.inr rfl
  case forced => exact fun _ => rfl

/-- A step of the shutdown keeps the accounts; where it stops the worker by force, what is left
in the channel is discarded. -/
theorem Accounts.stop (h : a.Accounts n records done discarded) {expired : Bool} {sh : Shutdown}
    (hstep : a.shutdown.step a.log expired = some (sh, b)) :
    (a.log.abort? = some b
        ∧ Accounts n records { a with log := b, shutdown := sh } done a.log.queue.channel)
      ∨ (a.log.Still b
        ∧ Accounts n records { a with log := b, shutdown := sh } done discarded) := by
  have hstopped := Shutdown.step_stopped hstep
  have hforced := h.forced
  generalize hbefore : a.shutdown = before at hstopped hforced
  cases hstopped with
  | closes hb =>
      subst hb
      refine Or.inr ⟨⟨rfl, rfl, rfl, rfl⟩, { h with
        gone := ?_, closed := ?_, handle := ?_, drained := nofun, expired := nofun
        forced := hforced }⟩
      · exact fun hgone => ⟨(h.gone hgone).1, rfl⟩
      · exact fun _ => rfl
      · exact fun _ => h.handle (Or.inl hbefore)
  | drains hb =>
      subst hb
      refine Or.inr ⟨⟨rfl, rfl, rfl, rfl⟩, { h with
        closed := ?_, handle := ?_, drained := nofun, expired := nofun, forced := hforced }⟩
      · exact fun _ => h.closed (by simp [hbefore])
      · exact fun _ => h.handle (Or.inr (Or.inl hbefore))
  | waits hhandle hb =>
      subst hb
      refine Or.inr ⟨⟨rfl, rfl, rfl, rfl⟩, { h with
        closed := ?_, handle := ?_, drained := nofun, expired := nofun, forced := hforced }⟩
      · exact fun _ => h.closed (by simp [hbefore])
      · intro hearly
        rcases hearly with hearly | hearly | hearly <;> cases hearly
  | skips hhandle hb =>
      -- nobody else takes the handle
      have hthere := h.handle (Or.inr (Or.inr hbefore))
      rw [hhandle] at hthere
      cases hthere
  | sees hworker hb =>
      subst hb
      have hexited : a.log.queue.worker = .exited := by
        rcases hworker with hworker | hworker
        · exact hworker
        · exact nomatch hforced hworker
      refine Or.inr ⟨⟨rfl, rfl, rfl, rfl⟩, { h with
        closed := ?_, handle := ?_, drained := fun _ => hexited, expired := nofun
        forced := ?_ }⟩
      · exact fun _ => h.closed (by simp [hbefore])
      · intro hearly
        rcases hearly with hearly | hearly | hearly <;> cases hearly
      · exact fun hstopped => nomatch hexited.symm.trans hstopped
  | aborts habort =>
      exact Or.inl ⟨habort, h.aborts hbefore habort⟩
  | ends hb =>
      rename_i drained
      subst hb
      refine Or.inr ⟨⟨rfl, rfl, rfl, rfl⟩, { h with
        closed := ?_, handle := ?_, drained := ?_, expired := ?_, forced := hforced }⟩
      · exact fun _ => h.closed (by simp [hbefore])
      · intro hearly
        rcases hearly with hearly | hearly | hearly <;> cases hearly
      · exact fun hfinding => h.drained (by rw [hbefore]; exact hfinding)
      · exact fun hfinding => h.expired (by rw [hbefore]; exact hfinding)

/-- The accounts are kept where the time is over just as the worker leaves. -/
theorem Accounts.lapse (h : a.Accounts n records done discarded) (hwaiting : a.shutdown = .waiting)
    (hworker : a.log.queue.worker = .exited) :
    Accounts n records { a with shutdown := .ending false } done discarded := by
  refine { h with closed := ?_, handle := ?_, drained := nofun, expired := ?_, forced := ?_ }
  · exact fun _ => h.closed (by simp [hwaiting])
  · intro hearly
    rcases hearly with hearly | hearly | hearly <;> cases hearly
  · exact fun _ => Or.inl hworker
  · exact fun _ => rfl

/-- A step of any of the parties keeps the accounts. -/
theorem step_accounts (h : a.Accounts n records done discarded) (hstep : Step a a') :
    ∃ done' discarded', a'.Accounts n records done' discarded' := by
  cases hstep with
  | submit hs hbusy => exact ⟨done, discarded, h.submit hs⟩
  | work hb =>
      obtain ⟨done', h'⟩ := h.work hb
      exact ⟨done', discarded, h'⟩
  | outlive hb =>
      obtain ⟨done', h'⟩ := h.outlive hb
      exact ⟨done', discarded, h'⟩
  | shutdown expired hs =>
      rcases h.stop hs with ⟨-, h'⟩ | ⟨-, h'⟩
      · exact ⟨done, _, h'⟩
      · exact ⟨done, discarded, h'⟩
  | lapse hwaiting hworker => exact ⟨done, discarded, h.lapse hwaiting hworker⟩

/-- The accounts are balanced before anything was done. -/
theorem start_accounts {capacity warnEvery : Nat} {q : Queue}
    (hq : Queue.ofCapacity? capacity warnEvery = some q) {j : Journal} (hj : j.history = [])
    (records : List Record) :
    (start j q records).Accounts j.delegate.sinks.length records [] [] := by
  unfold Queue.ofCapacity? at hq
  split at hq
  next => cases hq
  next =>
    cases hq
    have hmarks : j.marks = [] := congrArg (List.filterMap Notice.mark?) hj
    have hdrops : j.drops = [] := congrArg (List.filterMap Notice.drop?) hj
    have hundecided : (records.map Submission.fresh).flatMap Submission.undecided = records := by
      induction records with
      | nil => rfl
      | cons r rest ih => exact congrArg (r :: ·) ih
    have hleaving : (records.map Submission.fresh).flatMap Submission.leaving = [] := by
      clear hundecided
      induction records with
      | nil => rfl
      | cons r rest ih => exact ih
    constructor
    case sinks => rfl
    case submitted =>
      show ((records.map Submission.fresh).flatMap Submission.undecided ++ []).Perm records
      rw [hundecided, List.append_nil]
    case order => rfl
    case marks => exact hmarks
    case within => exact fun _ hmem => nomatch hmem
    case drops =>
      show (j.drops ++ ((records.map Submission.fresh).flatMap Submission.leaving).flatMap
        Record.owes).Perm []
      rw [hleaving, hdrops]
      rfl
    case live => exact fun _ => ⟨rfl, rfl⟩
    case single => exact Nat.zero_le 1
    case gone => exact fun hgone => by rcases hgone with hgone | hgone <;> cases hgone
    case closed => exact fun hbegun => absurd rfl hbegun
    case handle => exact fun _ => rfl
    case drained => exact nofun
    case expired => exact nofun
    case forced => exact nofun

end Logging

end Wiretap
