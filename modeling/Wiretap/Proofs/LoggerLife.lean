/-
  Wiretap.Proofs.LoggerLife
  ─────────────────────────
  **THE STATE OF A LOGGER.**

  A logger is idle, busy or stopped, and counts the dispatches that are under way.  Dispatches
  may overlap, sinks and listeners may do or become anything meanwhile: the state follows the
  count until the logger is stopped, and from there on it is that (`Delegate.Orderly`).

    • `Desk.act_orderly` — one act keeps a logger orderly,
    • `Desk.run_orderly` — and so do any number of them,
    • `Journal.submit_of_stopped` — a stopped logger drops what is submitted.
-/
import Wiretap.Proofs.Custody
import Wiretap.Proofs.Handovers

namespace Wiretap

/-! ## §1. What is asked of a logger. -/

/-- A job whose dispatch has not ended. -/
def Job.isCalling : Job → Bool
  | .calling .. => true
  | .finishing .. => false

/-- A journal, and the dispatches that are carried out on threads of their own. -/
structure Desk where
  journal : Journal
  jobs : List Job

/-- What is asked of a logger, and what happens around it. -/
inductive Act
  | dispatch (r : Record)
  | submit (r : Record)
  /-- A dispatch begins on a thread of its own. -/
  | begins (r : Record)
  /-- A dispatch that is under way takes its next step. -/
  | goesOn (index : Nat)
  /-- Sinks, listeners and the store are as given from here on. -/
  | meanwhile (store : Store) (sinks : List Sink) (listeners : List Listener)
  | stop

/-- Whether an act is over when the next one comes. -/
def Act.isWhole : Act → Bool
  | .begins _ => false
  | .goesOn _ => false
  | _ => true

namespace Desk

/-- How many dispatches have begun and not ended. -/
def underWay (d : Desk) : Nat := d.jobs.countP Job.isCalling

/-- The dispatch at an index takes its next step, and is gone behind its last one. -/
def goOn (d : Desk) (index : Nat) : Desk :=
  match d.jobs[index]? with
  | none => d
  | some job =>
    match d.journal.stepJob job with
    | (.inl next, j) => ⟨j, d.jobs.set index next⟩
    | (.inr _, j) => ⟨j, d.jobs.eraseIdx index⟩

/-- One act. -/
def act (d : Desk) : Act → Desk
  | .dispatch r => { d with journal := (d.journal.dispatch r).2 }
  | .submit r => { d with journal := d.journal.submit r }
  | .begins r => ⟨d.journal.enter, d.jobs ++ [.calling r 0 .ok]⟩
  | .goesOn index => d.goOn index
  | .meanwhile store sinks listeners =>
    let delegate := { d.journal.delegate with sinks := sinks, listeners := listeners }
    { d with journal := { d.journal with store := store, delegate := delegate } }
  | .stop => { d with journal := d.journal.stop }

/-- One act after the other. -/
def run (d : Desk) (acts : List Act) : Desk := acts.foldl act d

end Desk

/-! ## §2. The state behind each act. -/

/-- A logger counts the dispatches that are under way; it is busy while there are any, and from
where it is stopped on it is that. -/
structure Delegate.Orderly (stopped : Prop) (underWay : Nat) (d : Delegate) : Prop where
  inFlight : d.inFlight = underWay
  halted : stopped → d.state = .stopped
  running : ¬ stopped → d.state = if underWay = 0 then .idle else .dispatching

namespace Journal

variable {j j' : Journal} {r : Record} {stopped : Prop} {n : Nat}

theorem enter_orderly (h : j.delegate.Orderly stopped n) :
    j.enter.delegate.Orderly stopped (n + 1) := by
  rw [enter_eq]
  refine ⟨congrArg (· + 1) h.inFlight, fun hs => ?_, fun hs => ?_⟩
  · simp [h.halted hs]
  · simp only [h.inFlight, h.running hs]
    by_cases hn : n = 0
    · simp [hn]
    · simp [hn]

theorem leave_orderly (h : j.delegate.Orderly stopped (n + 1)) :
    j.leave.delegate.Orderly stopped n := by
  rw [leave_eq]
  refine ⟨?_, fun hs => ?_, fun hs => ?_⟩
  · simp [h.inFlight]
  · simp [h.halted hs]
  · simp only [h.inFlight, h.running hs]
    by_cases hn : n = 0
    · simp [hn]
    · simp [hn]

/-- A whole dispatch leaves as many under way as there were. -/
theorem dispatch_orderly (h : j.delegate.Orderly stopped n) (r : Record) :
    (j.dispatch r).2.delegate.Orderly stopped n := by
  have hentered := enter_orderly h
  have hcalls := (callSinks_calls j.enter r).2.delegate
  refine leave_orderly ?_
  show (j.enter.callSinks r).2.delegate.Orderly stopped (n + 1)
  rw [hcalls]
  exact ⟨hentered.inFlight, hentered.halted, hentered.running⟩

theorem submit_orderly (h : j.delegate.Orderly stopped n) (r : Record) :
    (j.submit r).delegate.Orderly stopped n := by
  unfold submit
  split
  next =>
    rw [finish_delegate]
    exact h
  next =>
    rw [finish_delegate]
    exact dispatch_orderly h r

/-- **A stopped logger drops a record** that is submitted, and calls no sink. -/
theorem submit_of_stopped (h : j.delegate.state = .stopped) (r : Record) :
    (j.submit r).history = j.history ++ r.owes.map (fun o => .finished o.1 o.2 .dropped)
      ∧ (j.submit r).delegate = j.delegate := by
  unfold submit
  rw [if_pos h, finish_delegate]
  exact ⟨(finish_adds _ r .dropped).history, rfl⟩

/-- A step of a dispatch ends it or not, and the logger knows. -/
theorem stepJob_orderly (job : Job)
    (h : j.delegate.Orderly stopped (n + if job.isCalling then 1 else 0)) :
    (j.stepJob job).2.delegate.Orderly stopped
      (n + match (j.stepJob job).1 with
        | .inl next => if next.isCalling then 1 else 0
        | .inr _ => 0) := by
  cases job with
  | calling r next result =>
      by_cases hnext : next < j.delegate.sinks.length
      · have hsinks : j.delegate.sinks = j.delegate.sinks.take next
            ++ j.delegate.sinks[next] :: j.delegate.sinks.drop (next + 1) := by
          rw [List.getElem_cons_drop, List.take_append_drop]
        have hcall := (callSink_calls hsinks r).2.1.delegate
        rw [List.length_take_of_le (Nat.le_of_lt hnext)] at hcall
        simp only [stepJob, if_pos hnext, callNext]
        rw [hcall]
        exact ⟨h.inFlight, h.halted, h.running⟩
      · simp only [stepJob, if_neg hnext]
        exact leave_orderly h
  | finishing r result =>
      simp only [stepJob, finish_delegate]
      exact h

end Journal

namespace Desk

variable {d : Desk} {stopped : Prop}

/-- A step of one dispatch leaves the others under way. -/
theorem goOn_orderly (h : d.journal.delegate.Orderly stopped d.underWay) (index : Nat) :
    (d.goOn index).journal.delegate.Orderly stopped (d.goOn index).underWay := by
  unfold goOn
  cases hjob : d.jobs[index]? with
  | none => exact h
  | some job =>
      obtain ⟨hlt, hget⟩ := List.getElem?_eq_some_iff.mp hjob
      have hcount : d.underWay = (d.jobs.eraseIdx index).countP Job.isCalling
          + if job.isCalling then 1 else 0 := by
        have hperm := (List.getElem_cons_eraseIdx_perm hlt).countP_eq Job.isCalling
        rw [hget, List.countP_cons] at hperm
        exact hperm.symm
      rw [hcount] at h
      have hstep := Journal.stepJob_orderly job h
      dsimp only
      generalize d.journal.stepJob job = stepped at hstep ⊢
      obtain ⟨next | result, j⟩ := stepped
      · have hset := (List.set_perm_cons_eraseIdx hlt next).countP_eq Job.isCalling
        rw [List.countP_cons] at hset
        show j.delegate.Orderly stopped ((d.jobs.set index next).countP Job.isCalling)
        rw [hset]
        exact hstep
      · exact hstep

/-- **One act** keeps a logger orderly, and only stopping it stops it. -/
theorem act_orderly (h : d.journal.delegate.Orderly stopped d.underWay) (a : Act) :
    (d.act a).journal.delegate.Orderly (stopped ∨ a = .stop) (d.act a).underWay := by
  -- an act that does not stop the logger leaves it at what it was, stopped or not
  have hkeep : ∀ {d' : Desk}, a ≠ .stop → d'.journal.delegate.Orderly stopped d'.underWay →
      d'.journal.delegate.Orderly (stopped ∨ a = .stop) d'.underWay := by
    intro d' ha hd'
    exact ⟨hd'.inFlight, fun hs => hd'.halted (hs.resolve_right ha),
      fun hs => hd'.running fun hstopped => hs (Or.inl hstopped)⟩
  cases a with
  | dispatch r => exact hkeep nofun (Journal.dispatch_orderly h r)
  | submit r => exact hkeep nofun (Journal.submit_orderly h r)
  | begins r =>
      refine hkeep nofun ?_
      have hunderWay : (d.act (.begins r)).underWay = d.underWay + 1 := by
        simp [underWay, act, Job.isCalling]
      rw [hunderWay]
      exact Journal.enter_orderly h
  | goesOn index => exact hkeep nofun (goOn_orderly h index)
  | meanwhile store sinks listeners =>
      exact hkeep nofun ⟨h.inFlight, h.halted, h.running⟩
  | stop => exact ⟨h.inFlight, fun _ => rfl, fun hs => absurd (Or.inr rfl) hs⟩

/-- **Whatever is asked of a logger**, it is orderly: stopped once it was stopped. -/
theorem run_orderly (acts : List Act) (h : d.journal.delegate.Orderly stopped d.underWay) :
    (d.run acts).journal.delegate.Orderly (stopped ∨ .stop ∈ acts) (d.run acts).underWay := by
  induction acts generalizing d stopped with
  | nil => simpa [run] using h
  | cons a rest ih =>
      have hrest := ih (act_orderly h a)
      have hmem : (stopped ∨ a = .stop) ∨ .stop ∈ rest ↔ stopped ∨ .stop ∈ a :: rest := by
        rw [or_assoc, List.mem_cons, eq_comm (a := a)]
      rwa [hmem] at hrest

/-- Acts that are over at once leave nothing under way. -/
theorem run_jobs (d : Desk) {acts : List Act} (h : ∀ a ∈ acts, a.isWhole = true) :
    (d.run acts).jobs = d.jobs := by
  induction acts generalizing d with
  | nil => rfl
  | cons a rest ih =>
      obtain ⟨ha, hrest⟩ := List.forall_mem_cons.mp h
      refine (ih (d.act a) hrest).trans ?_
      cases a with
      | begins r => cases ha
      | goesOn index => cases ha
      | _ => rfl

end Desk

end Wiretap
