/-
  Wiretap.Proofs.Scene
  ────────────────────
  **EXCHANGES SIDE BY SIDE.**

  Any number of exchanges with their taps, the tasks that complete them, and a log that works
  at once or in the background: all take their steps in any order (`Scene.Step`).  What a
  step means for buffers and records is said once (`Scene.Moved`):

    • `Scene.step_wired` — the taps that are open belong to exchanges that wait,
    • `Scene.step_moved` — a step writes to a buffer of an exchange that waits, makes the
      record of one whose taps are closed, or carries the records in flight.
-/
import Wiretap.Exchange.Guard
import Wiretap.Proofs.Custody
import Wiretap.Proofs.Taps

namespace Wiretap

open Journal

/-! ## §1. Scenes. -/

/-- How far an exchange is. -/
inductive Phase
  /-- It is under way. -/
  | underWay (guard : Guard)
  /-- It was taken out of its guard, and these taps are still to be closed. -/
  | closing (e : CompletedExchange) (taps : List Nat)
  /-- Its record was handed to a log that works at once. -/
  | submitted (record : Record)
  | dispatching (job : Job)
  /-- Its record is submitted to a log in the background. -/
  | submitting (submission : Submission)
  | over

namespace Phase

/-- The taps that are still to be closed. -/
def taps : Phase → List Nat
  | .underWay guard => (guard.pending.map Prod.snd).getD []
  | .closing _ taps => taps
  | _ => []

/-- The exchange, until its record is made. -/
def exchange? : Phase → Option CompletedExchange
  | .underWay guard => guard.pending.map Prod.fst
  | .closing e _ => some e
  | _ => none

/-- The record, until it has ended or the log has it. -/
def records : Phase → List Record
  | .submitted r => [r]
  | .dispatching job => [job.record]
  | .submitting s => s.records
  | _ => []

/-- Whether all taps are closed for good. -/
def IsSealed : Phase → Prop
  | .underWay _ => False
  | .closing _ taps => taps = []
  | _ => True

end Phase

/-- The task of an exchange, from its beginning on. -/
structure Task where
  id : ExchangeId
  phase : Phase

/-- The exchange of a task, while it waits for its end. -/
def Task.waits (task : Task) : List ExchangeId := (task.phase.exchange?.map fun _ => task.id).toList

/-- The records that a log in the background has. -/
def Site.records (site : Site) : List Record := (site.queue.map Queue.records).getD []

/-- Everybody at work. -/
structure Scene where
  traffic : Traffic
  /-- All exchanges that have begun. -/
  tasks : List Task
  shutdown : Shutdown

namespace Scene

/-- The journal. -/
def journal (σ : Scene) : Journal := σ.traffic.site.journal

/-- All exchanges that have begun. -/
def known (σ : Scene) : List ExchangeId := σ.tasks.map Task.id

/-- The exchanges that wait for their end. -/
def waiting (σ : Scene) : List ExchangeId := σ.tasks.flatMap Task.waits

/-- The records in flight. -/
def load (σ : Scene) : List Record :=
  σ.tasks.flatMap (fun task => task.phase.records) ++ σ.traffic.site.records

/-- With a task somewhere else. -/
def put (σ : Scene) (k : Nat) (id : ExchangeId) (phase : Phase) : Scene :=
  { σ with tasks := σ.tasks.set k ⟨id, phase⟩ }

/-- With another journal. -/
def withJournal (σ : Scene) (j : Journal) : Scene :=
  { σ with traffic := { σ.traffic with site := { σ.traffic.site with journal := j } } }

/-- With another log in the background. -/
def withLog (σ : Scene) (b : Background) : Scene :=
  { σ with traffic := { σ.traffic with site := ⟨b.journal, some b.queue⟩ } }

/-- The log in the background, if it works there. -/
def background? (σ : Scene) : Option Background :=
  σ.traffic.site.queue.map fun queue => ⟨σ.journal, queue⟩

/-- Where a record is once it was handed over. -/
def handover (σ : Scene) (r : Record) : Phase :=
  match σ.traffic.site.queue with
  | none => .submitted r
  | some _ => .submitting (.fresh r)

end Scene

/-- The next step of a dispatch by a log that works at once; before the record ends, the
dispatch is counted. -/
def Journal.stepAtOnce (j : Journal) : Job → (Job ⊕ SinkResult) × Journal
  | .calling r next result => j.stepJob (.calling r next result)
  | .finishing r result =>
    (j.count fun m => { m with dispatched := m.dispatched + 1 }).stepJob (.finishing r result)

/-! ## §2. Steps. -/

namespace Scene

/-- A step of one of the parties. -/
inductive Step (σ : Scene) : Scene → Prop
  /-- A new exchange begins. -/
  | begins {e : CompletedExchange} (hnew : e.id ∉ σ.known) :
      Step σ { σ with tasks := σ.tasks ++ [⟨e.id, .underWay (Guard.new e)⟩] }
  /-- A tap is made and registered, before anything goes through it. -/
  | registers {k : Nat} {id : ExchangeId} {guard : Guard}
      (hk : σ.tasks[k]? = some ⟨id, .underWay guard⟩) (d : Direction) :
      Step σ ({ σ with traffic := σ.traffic.addTap (Tap.new id d) }.put k id
        (.underWay (guard.register σ.traffic.taps.length)))
  /-- A chunk arrives at a tap, at any time. -/
  | writes (number : Nat) (chunk : Bytes) :
      Step σ { σ with traffic := σ.traffic.writeTap number chunk }
  /-- More becomes known of an exchange. -/
  | edits {k : Nat} {id : ExchangeId} {guard : Guard}
      (hk : σ.tasks[k]? = some ⟨id, .underWay guard⟩) {f : CompletedExchange → CompletedExchange}
      (hf : ∀ e, (f e).id = e.id) : Step σ (σ.put k id (.underWay (guard.modify f)))
  /-- An exchange is over and taken out of its guard. -/
  | takes {k : Nat} {id : ExchangeId} {e : CompletedExchange} {taps : List Nat}
      (hk : σ.tasks[k]? = some ⟨id, .underWay ⟨some (e, taps)⟩⟩) (exception : Option String)
      (elapsed : Time.Span) :
      Step σ (σ.put k id (.closing
        { e with duration := elapsed, exception := e.exception.or exception } taps))
  /-- The next of its taps is closed. -/
  | closes {k : Nat} {id : ExchangeId} {e : CompletedExchange} {number : Nat} {rest : List Nat}
      (hk : σ.tasks[k]? = some ⟨id, .closing e (number :: rest)⟩) :
      Step σ ({ σ with traffic := σ.traffic.closeTap number }.put k id (.closing e rest))
  /-- Its record is made and handed to the log. -/
  | hands {k : Nat} {id : ExchangeId} {e : CompletedExchange}
      (hk : σ.tasks[k]? = some ⟨id, .closing e []⟩) :
      Step σ (σ.put k id (σ.handover (σ.traffic.recording.assemble σ.journal.store e)))
  /-- A log that was stopped drops a record at once. -/
  | refuses {k : Nat} {id : ExchangeId} {r : Record} (hk : σ.tasks[k]? = some ⟨id, .submitted r⟩)
      (hstopped : σ.journal.delegate.state = .stopped) :
      Step σ ((σ.withJournal ((σ.journal.count fun m => { m with dropped := m.dropped + 1 }).finish
        r .dropped).1).put k id .over)
  /-- A dispatch at once begins, also of a record that came before the log was stopped. -/
  | enters {k : Nat} {id : ExchangeId} {r : Record} (hk : σ.tasks[k]? = some ⟨id, .submitted r⟩) :
      Step σ ((σ.withJournal σ.journal.enter).put k id (.dispatching (.calling r 0 .ok)))
  | calls {k : Nat} {id : ExchangeId} {job next : Job} {j : Journal}
      (hk : σ.tasks[k]? = some ⟨id, .dispatching job⟩)
      (hjob : σ.journal.stepAtOnce job = (.inl next, j)) :
      Step σ ((σ.withJournal j).put k id (.dispatching next))
  | returns {k : Nat} {id : ExchangeId} {job : Job} {result : SinkResult} {j : Journal}
      (hk : σ.tasks[k]? = some ⟨id, .dispatching job⟩)
      (hjob : σ.journal.stepAtOnce job = (.inr result, j)) :
      Step σ ((σ.withJournal j).put k id .over)
  /-- The log that works at once is stopped. -/
  | stops : Step σ (σ.withJournal σ.journal.stop)
  /-- The parties at a log in the background. -/
  | submits {k : Nat} {id : ExchangeId} {s : Submission} {b : Background}
      (hk : σ.tasks[k]? = some ⟨id, .submitting s⟩) (hbusy : s ≠ .done)
      (hb : σ.background? = some b) :
      Step σ ((σ.withLog (s.step b).2).put k id (.submitting (s.step b).1))
  | works {b b' : Background} (hb : σ.background? = some b) (h : b.work = some b') :
      Step σ (σ.withLog b')
  | outlives {b b' : Background} (hb : σ.background? = some b) (h : b.workDetached = some b') :
      Step σ (σ.withLog b')
  | shuts {b b' : Background} {expired : Bool} {sh : Shutdown} (hb : σ.background? = some b)
      (h : σ.shutdown.step b expired = some (sh, b')) :
      Step σ { σ.withLog b' with shutdown := sh }
  | lapses {b : Background} (hb : σ.background? = some b) (hwaiting : σ.shutdown = .waiting)
      (hworker : b.queue.worker = .exited) : Step σ { σ with shutdown := .ending false }

/-- A run of any number of steps. -/
abbrev Run : Scene → Scene → Prop := Relation.ReflTransGen Step

/-! ## §3. Tasks and taps. -/

variable {σ σ' : Scene} {k : Nat} {id : ExchangeId} {phase phase' : Phase}

theorem put_known (hk : σ.tasks[k]? = some ⟨id, phase⟩) (phase' : Phase) :
    (σ.put k id phase').known = σ.known := by
  have hid : (σ.tasks.map Task.id)[k]? = some id := by
    rw [List.getElem?_map, hk]
    rfl
  obtain ⟨hlt, hget⟩ := List.getElem?_eq_some_iff.mp hid
  show (σ.tasks.set k ⟨id, phase'⟩).map Task.id = σ.tasks.map Task.id
  rw [List.map_set]
  show (σ.tasks.map Task.id).set k id = σ.tasks.map Task.id
  rw [← hget, List.set_getElem_self]

/-- The tasks after one was moved are that one and the others. -/
theorem mem_put {task : Task} (h : task ∈ (σ.put k id phase').tasks) :
    task = ⟨id, phase'⟩ ∨ task ∈ σ.tasks := by
  rcases List.mem_or_eq_of_mem_set h with hmem | heq
  · exact Or.inr hmem
  · exact Or.inl heq

/-- The structure of a scene: exchanges have names of their own, and the taps that are open
belong to exchanges that are going to close them. -/
structure Wired (σ : Scene) : Prop where
  distinct : σ.known.Nodup
  /-- An exchange under way is in its guard. -/
  guarded : ∀ id guard, ⟨id, .underWay guard⟩ ∈ σ.tasks → guard.pending ≠ none
  named : ∀ task ∈ σ.tasks, ∀ e, task.phase.exchange? = some e → e.id = task.id
  taps : ∀ (number : Nat) (tap : Tap), σ.traffic.taps[number]? = some tap → tap.closed = false →
    ∃ task ∈ σ.tasks, task.id = tap.id ∧ number ∈ task.phase.taps

/-- Moving a task keeps the structure, if the taps that are open now were open, or are its
own. -/
theorem Wired.put (h : σ.Wired) (hk : σ.tasks[k]? = some ⟨id, phase⟩) (traffic : Traffic)
    (hguard : ∀ guard, phase' = .underWay guard → guard.pending ≠ none)
    (hnamed : ∀ e, phase'.exchange? = some e → e.id = id)
    (htaps : ∀ (number : Nat) (tap : Tap), traffic.taps[number]? = some tap → tap.closed = false →
      (tap.id = id ∧ number ∈ phase'.taps)
        ∨ (number ∈ phase.taps → number ∈ phase'.taps)
          ∧ ∃ old, σ.traffic.taps[number]? = some old ∧ old.closed = false ∧ old.id = tap.id) :
    Wired ({ σ with traffic }.put k id phase') := by
  obtain ⟨hlt, hget⟩ := List.getElem?_eq_some_iff.mp hk
  have hput : ⟨id, phase'⟩ ∈ ({ σ with traffic }.put k id phase').tasks := List.mem_set hlt _
  constructor
  case distinct =>
    rw [put_known (show ({ σ with traffic } : Scene).tasks[k]? = _ from hk)]
    exact h.distinct
  case guarded =>
    intro id' guard hmem
    rcases mem_put hmem with heq | hmem
    · cases heq
      exact hguard guard rfl
    · exact h.guarded id' guard hmem
  case named =>
    intro task hmem e he
    rcases mem_put hmem with rfl | hmem
    · exact hnamed e he
    · exact h.named task hmem e he
  case taps =>
    intro number tap htap hopen
    rcases htaps number tap htap hopen with ⟨hid, hmine⟩ | ⟨hkeeps, old, hold, hopen', hid⟩
    · exact ⟨_, hput, hid.symm, hmine⟩
    · obtain ⟨task, hmem, htask, hnumber⟩ := h.taps number old hold hopen'
      obtain ⟨i, hi⟩ := List.getElem?_of_mem hmem
      by_cases hik : i = k
      · -- the task of the tap is the one that was moved
        rw [hik, hk] at hi
        cases hi
        exact ⟨_, hput, htask.trans hid, hkeeps hnumber⟩
      · refine ⟨task, List.mem_of_getElem? (i := i) ?_, htask.trans hid, hnumber⟩
        show (σ.tasks.set k ⟨id, phase'⟩)[i]? = some task
        rw [List.getElem?_set_ne (Ne.symm hik)]
        exact hi

/-- Where a record is carried on, no tap is left to close. -/
theorem Wired.putLog (h : σ.Wired) (hk : σ.tasks[k]? = some ⟨id, phase⟩) (site : Site)
    (hsealed : phase'.IsSealed) (hphase : phase'.exchange? = none) (htaps : phase.taps = []) :
    Wired ({ σ with traffic := { σ.traffic with site } }.put k id phase') := by
  refine h.put hk { σ.traffic with site } ?_ ?_ ?_
  · rintro guard rfl
    exact hsealed.elim
  · intro e he
    rw [hphase] at he
    cases he
  · intro number tap htap hopen
    refine Or.inr ⟨fun hmem => ?_, tap, htap, hopen, rfl⟩
    rw [htaps] at hmem
    cases hmem

/-- A record that was handed over is in flight, and its exchange waits no more. -/
theorem handover_spec (σ : Scene) (r : Record) :
    (σ.handover r).records = [r] ∧ (σ.handover r).exchange? = none ∧ (σ.handover r).IsSealed := by
  unfold handover
  split
  next => exact ⟨rfl, rfl, trivial⟩
  next => exact ⟨rfl, rfl, trivial⟩

/-- A tap stays what it is, but for its failure, and a chunk is written only while it is
open. -/
theorem tap_write_cases (tap : Tap) (s : Store) (chunk : Bytes) :
    ((tap.write s chunk).1.closed = tap.closed ∧ (tap.write s chunk).1.id = tap.id)
      ∧ ((tap.write s chunk).2 = s
        ∨ tap.closed = false ∧ ∃ metrics, (tap.write s chunk).2
          = { (s.write tap.direction tap.id chunk).2 with metrics }) := by
  rcases tap.write_cases s chunk with ⟨-, -, hw⟩ | ⟨outcome, hopen, -, -, -, htap, hstore, -⟩
  · rw [hw]
    exact ⟨⟨rfl, rfl⟩, Or.inl rfl⟩
  · rw [htap]
    exact ⟨⟨rfl, rfl⟩, Or.inr ⟨hopen, hstore⟩⟩

/-- What a chunk does to the taps. -/
theorem writeTap_taps (t : Traffic) (written : Nat) (chunk : Bytes) {number : Nat} {tap : Tap}
    (h : (t.writeTap written chunk).taps[number]? = some tap) :
    ∃ old, t.taps[number]? = some old ∧ old.closed = tap.closed ∧ old.id = tap.id := by
  unfold Traffic.writeTap at h
  split at h
  next => exact ⟨tap, h, rfl, rfl⟩
  next before hbefore =>
    -- the tap that was written through is put back, and no other is touched
    have hset : (t.taps.set written (before.write t.site.journal.store chunk).1)[number]?
        = some tap := h
    by_cases hnumber : written = number
    · subst hnumber
      have hlt := (List.getElem?_eq_some_iff.mp hbefore).1
      rw [List.getElem?_set_self hlt] at hset
      cases hset
      obtain ⟨⟨hclosed, hid⟩, -⟩ := tap_write_cases before t.site.journal.store chunk
      exact ⟨before, hbefore, hclosed.symm, hid.symm⟩
    · rw [List.getElem?_set_ne hnumber] at hset
      exact ⟨tap, hset, rfl, rfl⟩

/-- Where an exchange is under way, it is in its guard. -/
theorem Wired.pending (h : σ.Wired) {guard : Guard}
    (hk : σ.tasks[k]? = some ⟨id, .underWay guard⟩) : ∃ e taps, guard.pending = some (e, taps) := by
  obtain ⟨⟨e, taps⟩, hpending⟩ := Option.ne_none_iff_exists'.mp
    (h.guarded id guard (List.mem_of_getElem? hk))
  exact ⟨e, taps, hpending⟩

/-- A new exchange has no taps yet. -/
theorem Wired.begins (h : σ.Wired) {e : CompletedExchange} (hnew : e.id ∉ σ.known) :
    Wired { σ with tasks := σ.tasks ++ [⟨e.id, .underWay (Guard.new e)⟩] } := by
  constructor
  case distinct =>
    show ((σ.tasks ++ [_]).map Task.id).Nodup
    rw [List.map_append]
    refine List.nodup_append.mpr ⟨h.distinct, List.pairwise_singleton _ _, ?_⟩
    rintro id hid other hother rfl
    obtain rfl := List.mem_singleton.mp hother
    exact hnew hid
  case guarded =>
    intro id guard hmem
    rcases List.mem_append.mp hmem with hmem | hmem
    · exact h.guarded id guard hmem
    · cases List.mem_singleton.mp hmem
      exact Option.some_ne_none _
  case named =>
    intro task hmem e' he
    rcases List.mem_append.mp hmem with hmem | hmem
    · exact h.named task hmem e' he
    · cases List.mem_singleton.mp hmem
      cases he
      rfl
  case taps =>
    intro number tap htap hopen
    obtain ⟨task, hmem, hrest⟩ := h.taps number tap htap hopen
    exact ⟨task, List.mem_append_left _ hmem, hrest⟩

/-- A tap is registered under the number that it gets. -/
theorem Wired.registers (h : σ.Wired) {guard : Guard}
    (hk : σ.tasks[k]? = some ⟨id, .underWay guard⟩) (d : Direction) :
    Wired (({ σ with traffic := σ.traffic.addTap (Tap.new id d) } : Scene).put k id
      (.underWay (guard.register σ.traffic.taps.length))) := by
  obtain ⟨e, taps, hpending⟩ := h.pending hk
  refine h.put hk _ ?_ ?_ ?_
  · intro guard' heq
    cases heq
    simp [Guard.register, hpending]
  · intro e' he
    refine h.named _ (List.mem_of_getElem? hk) e' ?_
    simpa [Phase.exchange?, Guard.register, hpending] using he
  · intro number tap htap hopen
    have hadd : (σ.traffic.taps ++ [Tap.new id d])[number]? = some tap := htap
    by_cases hlt : number < σ.traffic.taps.length
    · rw [List.getElem?_append_left hlt] at hadd
      refine Or.inr ⟨fun hmem => ?_, tap, hadd, hopen, rfl⟩
      simp only [Phase.taps, Guard.register, hpending, Option.map_some, Option.getD_some] at hmem ⊢
      exact List.mem_append_left _ hmem
    · obtain ⟨hbound, heq⟩ := List.getElem?_eq_some_iff.mp hadd
      rw [List.length_append, List.length_singleton] at hbound
      have hnumber : number = σ.traffic.taps.length := by omega
      subst hnumber
      rw [List.getElem_concat_length rfl] at heq
      subst heq
      refine Or.inl ⟨rfl, ?_⟩
      simp [Phase.taps, Guard.register, hpending]

/-- More becomes known of an exchange, but not another name. -/
theorem Wired.edits (h : σ.Wired) {guard : Guard}
    (hk : σ.tasks[k]? = some ⟨id, .underWay guard⟩) {f : CompletedExchange → CompletedExchange}
    (hf : ∀ e, (f e).id = e.id) : Wired (σ.put k id (.underWay (guard.modify f))) := by
  obtain ⟨e, taps, hpending⟩ := h.pending hk
  refine h.put hk σ.traffic ?_ ?_ ?_
  · intro guard' heq
    cases heq
    simp [Guard.modify, hpending]
  · intro e' he
    have hname := h.named _ (List.mem_of_getElem? hk) e (by simp [Phase.exchange?, hpending])
    simp only [Phase.exchange?, Guard.modify, hpending, Option.map_some] at he
    cases he
    exact (hf e).trans hname
  · intro number tap htap hopen
    refine Or.inr ⟨fun hmem => ?_, tap, htap, hopen, rfl⟩
    simpa [Phase.taps, Guard.modify, hpending] using hmem

/-- A tap that is closed need not be closed any more. -/
theorem Wired.closes (h : σ.Wired) {e : CompletedExchange} {number : Nat} {rest : List Nat}
    (hk : σ.tasks[k]? = some ⟨id, .closing e (number :: rest)⟩) :
    Wired (({ σ with traffic := σ.traffic.closeTap number } : Scene).put k id
      (.closing e rest)) := by
  refine h.put hk _ (fun _ heq => nomatch heq) ?_ ?_
  · exact fun e' he => h.named _ (List.mem_of_getElem? hk) e' he
  · intro number' tap htap hopen
    have hmodify : (σ.traffic.taps.modify number Tap.close)[number']? = some tap := htap
    rw [List.getElem?_modify] at hmodify
    obtain ⟨old, hold, heq⟩ := Option.map_eq_some_iff.mp hmodify
    by_cases hnumber : number = number'
    · -- the tap would be open and closed
      rw [if_pos hnumber] at heq
      subst heq
      cases hopen
    · rw [if_neg hnumber] at heq
      subst heq
      refine Or.inr ⟨fun hmem => ?_, old, hold, hopen, rfl⟩
      rcases List.mem_cons.mp hmem with heq | hmem
      · exact absurd heq.symm hnumber
      · exact hmem

/-- A step keeps the structure of a scene. -/
theorem step_wired (h : σ.Wired) (hstep : Step σ σ') : σ'.Wired := by
  cases hstep with
  | begins hnew => exact h.begins hnew
  | registers hk d => exact h.registers hk d
  | writes number chunk =>
      refine ⟨h.distinct, h.guarded, h.named, fun number' tap htap hopen => ?_⟩
      obtain ⟨old, hold, hclosed, hid⟩ := writeTap_taps σ.traffic number chunk htap
      obtain ⟨task, hmem, htask, hnumber⟩ := h.taps number' old hold (hclosed.trans hopen)
      exact ⟨task, hmem, htask.trans hid, hnumber⟩
  | edits hk hf => exact h.edits hk hf
  | takes hk exception elapsed =>
      rename_i k id e taps
      refine h.put hk σ.traffic (fun _ heq => nomatch heq) ?_ ?_
      · intro e' he
        have hname := h.named _ (List.mem_of_getElem? hk) e rfl
        cases he
        exact hname
      · exact fun number tap htap hopen => Or.inr ⟨fun hmem => hmem, tap, htap, hopen, rfl⟩
  | closes hk => exact h.closes hk
  | hands hk =>
      obtain ⟨-, hexchange, hsealed⟩ :=
        σ.handover_spec (σ.traffic.recording.assemble σ.journal.store _)
      exact h.putLog hk σ.traffic.site hsealed hexchange rfl
  | refuses hk hstopped => exact h.putLog hk _ trivial rfl rfl
  | enters hk => exact h.putLog hk _ trivial rfl rfl
  | calls hk hjob => exact h.putLog hk _ trivial rfl rfl
  | returns hk hjob => exact h.putLog hk _ trivial rfl rfl
  | submits hk hbusy hb => exact h.putLog hk _ trivial rfl rfl
  | stops => exact ⟨h.distinct, h.guarded, h.named, h.taps⟩
  | works hb hwork => exact ⟨h.distinct, h.guarded, h.named, h.taps⟩
  | outlives hb hwork => exact ⟨h.distinct, h.guarded, h.named, h.taps⟩
  | shuts hb hshut => exact ⟨h.distinct, h.guarded, h.named, h.taps⟩
  | lapses hb hwaiting hworker => exact ⟨h.distinct, h.guarded, h.named, h.taps⟩

/-! ## §4. What a step means. -/

/-- What a step does to those who wait, the records in flight and the journal. -/
inductive Moved (σ σ' : Scene) : Prop
  /-- One more exchange waits. -/
  | begins {id : ExchangeId} (hnew : id ∉ σ.known) (hknown : σ'.known = σ.known ++ [id])
      (hwaiting : σ'.waiting = σ.waiting ++ [id]) (hload : σ'.load = σ.load)
      (hjournal : σ'.journal = σ.journal)
  /-- A chunk is written for an exchange with a tap that is still to be closed. -/
  | writes {d : Direction} {id : ExchangeId} {chunk : Bytes} {metrics : Metrics}
      (hopen : ∃ task ∈ σ.tasks, task.id = id ∧ task.phase.taps ≠ [])
      (hknown : σ'.known = σ.known) (hwaiting : σ'.waiting = σ.waiting) (hload : σ'.load = σ.load)
      (hjournal : σ'.journal = { σ.journal with
        store := { (σ.journal.store.write d id chunk).2 with metrics } })
  /-- The record of an exchange is made, which waits no more. -/
  | hands {e : CompletedExchange} (hknown : σ'.known = σ.known)
      (hwaiting : σ.waiting.Perm (e.id :: σ'.waiting))
      (hload : σ'.load.Perm (σ.traffic.recording.assemble σ.journal.store e :: σ.load))
      (hjournal : σ'.journal = σ.journal)
  /-- Records in flight are carried. -/
  | carries (hknown : σ'.known = σ.known) (hwaiting : σ'.waiting.Perm σ.waiting)
      (hcarries : Carries Somehow σ.journal σ.load σ'.journal σ'.load)

/-- While a tap is to be closed, its exchange waits. -/
theorem mem_waiting {task : Task} (hmem : task ∈ σ.tasks) (htaps : task.phase.taps ≠ []) :
    task.id ∈ σ.waiting := by
  refine List.mem_flatMap.mpr ⟨task, hmem, ?_⟩
  unfold Task.waits
  cases hphase : task.phase with
  | underWay guard =>
      rw [hphase] at htaps
      cases hpending : guard.pending with
      | none => simp [Phase.taps, hpending] at htaps
      | some p => simp [Phase.exchange?, hpending]
  | closing e taps => simp [Phase.exchange?]
  | _ =>
      rw [hphase] at htaps
      exact absurd rfl htaps

/-- A chunk at a tap that is open is written for an exchange that waits, and any other is not
written. -/
theorem writeTap_moved (h : σ.Wired) (number : Nat) (chunk : Bytes) :
    Moved σ { σ with traffic := σ.traffic.writeTap number chunk } := by
  -- where the store is as it was, nothing happens at all
  have hnothing (hsite : (σ.traffic.writeTap number chunk).site = σ.traffic.site) :
      Moved σ { σ with traffic := σ.traffic.writeTap number chunk } := by
    refine .carries rfl (.refl _) ?_
    unfold load journal
    rw [hsite]
    exact .refl _ _
  cases htap : σ.traffic.taps[number]? with
  | none =>
      refine hnothing ?_
      unfold Traffic.writeTap
      rw [htap]
  | some tap =>
      have hsite : (σ.traffic.writeTap number chunk).site
          = σ.traffic.site.withStore (tap.write σ.journal.store chunk).2 := by
        unfold Traffic.writeTap
        rw [htap]
        rfl
      obtain ⟨-, hsame | ⟨hopen, metrics, hwritten⟩⟩ := tap_write_cases tap σ.journal.store chunk
      · refine hnothing ?_
        rw [hsite, hsame]
        rfl
      · obtain ⟨task, hmem, htask, hnumber⟩ := h.taps number tap htap hopen
        -- the tap is open, so its exchange still has it to close
        have hwaits : ∃ task ∈ σ.tasks, task.id = tap.id ∧ task.phase.taps ≠ [] :=
          ⟨task, hmem, htask, List.ne_nil_of_mem hnumber⟩
        have hload : ({ σ with traffic := σ.traffic.writeTap number chunk } : Scene).load
            = σ.load := by
          unfold load Site.records
          rw [hsite]
          rfl
        have hjournal : ({ σ with traffic := σ.traffic.writeTap number chunk } : Scene).journal
            = { σ.journal with store :=
                { (σ.journal.store.write tap.direction tap.id chunk).2 with metrics } } := by
          unfold journal
          rw [hsite, ← journal, ← hwritten]
          rfl
        exact .writes hwaits rfl rfl hload hjournal

/-- A task that still waits, or still does not, where it was moved. -/
theorem put_waiting (hk : σ.tasks[k]? = some ⟨id, phase⟩) (traffic : Traffic)
    (hsame : phase'.exchange?.isSome = phase.exchange?.isSome) :
    (({ σ with traffic } : Scene).put k id phase').waiting.Perm σ.waiting := by
  obtain ⟨rest, hp, hp'⟩ := flatMap_set_perm hk ⟨id, phase'⟩ Task.waits
  have hwaits : Task.waits ⟨id, phase'⟩ = Task.waits ⟨id, phase⟩ := by
    unfold Task.waits
    cases he : phase.exchange? with
    | none =>
        rw [he] at hsame
        cases he' : phase'.exchange? with
        | none => rfl
        | some e' => rw [he'] at hsame; cases hsame
    | some e =>
        rw [he] at hsame
        cases he' : phase'.exchange? with
        | none => rw [he'] at hsame; cases hsame
        | some e' => rfl
  rw [hwaits] at hp'
  exact hp'.trans hp.symm

/-- The records in flight are those of one task, those of the others, and those that the log
has. -/
theorem put_load (hk : σ.tasks[k]? = some ⟨id, phase⟩) (phase' : Phase) :
    ∃ rest, σ.load.Perm (phase.records ++ (rest ++ σ.traffic.site.records))
      ∧ ∀ traffic : Traffic, (({ σ with traffic } : Scene).put k id phase').load.Perm
        (phase'.records ++ (rest ++ traffic.site.records)) := by
  obtain ⟨rest, hp, hp'⟩ := flatMap_set_perm hk ⟨id, phase'⟩ fun task => task.phase.records
  refine ⟨rest, ?_, fun traffic => ?_⟩
  · rw [← List.append_assoc]
    exact hp.append_right _
  · rw [← List.append_assoc]
    exact hp'.append_right _

/-- A task moves, and nothing happens to a record. -/
theorem put_moved (hk : σ.tasks[k]? = some ⟨id, phase⟩) (traffic : Traffic)
    (hsite : traffic.site = σ.traffic.site)
    (hsame : phase'.exchange?.isSome = phase.exchange?.isSome)
    (hrecords : phase'.records = phase.records) :
    Moved σ (({ σ with traffic } : Scene).put k id phase') := by
  obtain ⟨rest, hp, hp'⟩ := put_load hk phase'
  have hload := hp' traffic
  rw [hrecords, hsite] at hload
  have hjournal : (({ σ with traffic } : Scene).put k id phase').journal = σ.journal :=
    congrArg Site.journal hsite
  refine .carries (put_known hk phase') (put_waiting hk traffic hsame) ?_
  rw [hjournal]
  exact .passes (hp.trans hload.symm)

/-- A log that works at once carries the record of a task. -/
theorem putJournal_moved (hk : σ.tasks[k]? = some ⟨id, phase⟩) {j : Journal}
    (hsame : phase'.exchange?.isSome = phase.exchange?.isSome)
    (hcarries : Carries Somehow σ.journal phase.records j phase'.records) :
    Moved σ ((σ.withJournal j).put k id phase') := by
  obtain ⟨rest, hp, hp'⟩ := put_load hk phase'
  refine .carries (put_known hk phase') (put_waiting hk _ hsame) ?_
  exact (Carries.passes hp).trans ((hcarries.more _).trans (.passes (hp' _).symm))

/-- A log in the background carries the records that it has. -/
theorem withLog_moved {b b' : Background} (hb : σ.background? = some b) (shutdown : Shutdown)
    (hcarries : Carries Somehow b.journal b.queue.records b'.journal b'.queue.records) :
    Moved σ { σ.withLog b' with shutdown } := by
  obtain ⟨queue, hqueue, rfl⟩ := Option.map_eq_some_iff.mp hb
  have hload : σ.load = σ.tasks.flatMap (fun task => task.phase.records) ++ queue.records := by
    unfold load Site.records
    rw [hqueue]
    rfl
  refine .carries rfl (.refl _) ?_
  rw [hload]
  exact (Carries.passes List.perm_append_comm).trans ((hcarries.more _).trans
    (.passes List.perm_append_comm))

theorem stepAtOnce_carries (j : Journal) (job : Job) :
    match (j.stepAtOnce job).1 with
    | .inl next => Carries Somehow j [job.record] (j.stepAtOnce job).2 [next.record]
    | .inr _ => Carries Somehow j [job.record] (j.stepAtOnce job).2 [] := by
  cases job with
  | calling r next result =>
      have hstep := stepJob_carries j (.calling r next result)
      show match (j.stepJob (.calling r next result)).1 with
        | .inl next' => Carries Somehow j [r] (j.stepJob (.calling r next result)).2 [next'.record]
        | .inr _ => Carries Somehow j [r] (j.stepJob (.calling r next result)).2 []
      split
      next next' hnext =>
        rw [hnext] at hstep
        exact hstep.2
      next result' hresult =>
        rw [hresult] at hstep
        exact hstep
  | finishing r result =>
      exact (Carries.silent (count_silent j _)).trans (finish_carries _ r (.delivered result))

/-- What every step means. -/
theorem step_moved (h : σ.Wired) (hstep : Step σ σ') : Moved σ σ' := by
  cases hstep with
  | begins hnew =>
      rename_i e
      refine .begins hnew ?_ ?_ ?_ rfl
      · show (σ.tasks ++ [_]).map Task.id = σ.tasks.map Task.id ++ [e.id]
        rw [List.map_append]
        rfl
      · show (σ.tasks ++ [_]).flatMap Task.waits = σ.tasks.flatMap Task.waits ++ [e.id]
        rw [List.flatMap_append]
        rfl
      · show (σ.tasks ++ [_]).flatMap (fun task : Task => task.phase.records) ++ _ = _
        rw [List.flatMap_append]
        exact congrArg (· ++ _) (List.append_nil _)
  | registers hk d =>
      refine put_moved hk _ rfl ?_ rfl
      simp [Phase.exchange?, Guard.register]
  | writes number chunk => exact writeTap_moved h number chunk
  | edits hk hf =>
      refine put_moved hk σ.traffic rfl ?_ rfl
      simp [Phase.exchange?, Guard.modify]
  | takes hk exception elapsed => exact put_moved hk σ.traffic rfl rfl rfl
  | closes hk => exact put_moved hk _ rfl rfl rfl
  | hands hk =>
      rename_i k id e
      have hname : e.id = id := h.named _ (List.mem_of_getElem? hk) e rfl
      obtain ⟨rest, hwaits, hwaits'⟩ := flatMap_set_perm hk
        ⟨id, σ.handover (σ.traffic.recording.assemble σ.journal.store e)⟩ Task.waits
      obtain ⟨others, hload, hload'⟩ := put_load hk
        (σ.handover (σ.traffic.recording.assemble σ.journal.store e))
      obtain ⟨hrecords, hexchange, -⟩ :=
        σ.handover_spec (σ.traffic.recording.assemble σ.journal.store e)
      have hnone : Task.waits ⟨id, σ.handover (σ.traffic.recording.assemble σ.journal.store e)⟩
          = [] := by
        unfold Task.waits
        rw [hexchange]
        rfl
      rw [hnone] at hwaits'
      have hnow := hload' σ.traffic
      rw [hrecords] at hnow
      refine .hands (e := e) (put_known hk _) ?_ ?_ rfl
      · rw [hname]
        exact hwaits.trans (hwaits'.symm.cons id)
      · exact hnow.trans (hload.symm.cons _)
  | refuses hk hstopped =>
      exact putJournal_moved hk rfl
        ((Carries.silent (count_silent _ _)).trans (finish_carries _ _ .dropped))
  | enters hk => exact putJournal_moved hk rfl (.silent (enter_silent _))
  | calls hk hjob =>
      rename_i k id job next j
      have hcarries := stepAtOnce_carries σ.journal job
      rw [hjob] at hcarries
      exact putJournal_moved hk rfl hcarries
  | returns hk hjob =>
      rename_i k id job result j
      have hcarries := stepAtOnce_carries σ.journal job
      rw [hjob] at hcarries
      exact putJournal_moved hk rfl hcarries
  | stops =>
      refine .carries rfl (.refl _) ?_
      exact .silent (.of_same rfl rfl rfl rfl)
  | submits hk hbusy hb =>
      rename_i k id s b
      obtain ⟨queue, hqueue, rfl⟩ := Option.map_eq_some_iff.mp hb
      obtain ⟨rest, hp, hp'⟩ := put_load hk (.submitting (s.step ⟨σ.journal, queue⟩).1)
      have hrecords : σ.traffic.site.records = queue.records := by
        unfold Site.records
        rw [hqueue]
        rfl
      have hregroup (own other theirs : List Record) :
          (own ++ (other ++ theirs)).Perm ((own ++ theirs) ++ other) := by
        rw [List.append_assoc]
        exact List.perm_append_comm.append_left own
      rw [hrecords] at hp
      refine .carries (put_known hk _) (put_waiting hk _ rfl) ?_
      have hcarries := (s.step_carries ⟨σ.journal, queue⟩).more rest
      exact (Carries.passes (hp.trans (hregroup _ _ _))).trans
        (hcarries.trans (.passes ((hp' (σ.withLog (s.step ⟨σ.journal, queue⟩).2).traffic).trans
          (hregroup _ _ _)).symm))
  | works hb hwork => exact withLog_moved hb σ.shutdown (Background.work_carries hwork)
  | outlives hb hwork => exact withLog_moved hb σ.shutdown (Background.workDetached_carries hwork)
  | shuts hb hshut => exact withLog_moved hb _ (Shutdown.step_carries hshut)
  | lapses hb hwaiting hworker => exact .carries rfl (.refl _) (.refl _ _)

end Scene

end Wiretap
