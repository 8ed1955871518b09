/-
  Wiretap.Proofs.DropWarnings
  ───────────────────────────
  **A WARNING EVERY SO MANY DROPS.**

  A refused submission counts its drop, looks up the number of the last one that was warned of,
  and warns if its own is far enough behind and nobody has warned meanwhile.  So two warnings
  are never closer than they may be, whatever order the steps of several submissions take: who
  looked too early has looked at a number that is not the last one any more.  Where submissions
  take these steps one behind the other, the warnings are those of the first drop and of every
  so many behind it:

    • `Submission.step_drops`   — what a step of a submission has to do with drops,
    • `Closing.step_drops`      — the same of a step of the whole log,
    • `Closing.step_spaced`     — warnings stay apart (`Closing.Spaced`),
    • `Closing.step_orderly`    — one behind the other (`Closing.Orderly`),
    • `Closing.warnings_apart`  — what holds after any number of steps.
-/
import Wiretap.Proofs.Balance

namespace Wiretap

/-! ## §1. What is warned of. -/

/-- The number that a warning carries. -/
def Notice.warned? : Notice → Option Nat
  | .event (.dropping _ total _) => some total
  | _ => none

/-- The numbers of the warnings so far, in order. -/
def Journal.warnings (j : Journal) : List Nat := j.history.filterMap Notice.warned?

/-- No sink warns of drops. -/
theorem Sink.warned_of_mem {sink : Sink} {disk : Disk} {r : Record} {event : Event}
    (h : event ∈ (sink.call disk r).events) : (Notice.event event).warned? = none := by
  unfold call at h
  split at h
  next =>
    cases List.mem_singleton.mp h
    rfl
  next => cases h
  next => cases h

namespace Journal

variable {j j' : Journal} {notices : List Notice}

/-- What is noted is no warning. -/
theorem Adds.warnings (h : Adds j notices j')
    (hnone : notices.filterMap Notice.warned? = []) : j'.warnings = j.warnings := by
  unfold Journal.warnings
  rw [h.filterMap, hnone, List.append_nil]

theorem finish_warnings (j : Journal) (r : Record) (disposition : Disposition) :
    (j.finish r disposition).1.warnings = j.warnings := by
  refine (j.finish_adds r disposition).warnings ?_
  unfold Record.endNotices
  rw [List.filterMap_map]
  exact List.filterMap_eq_nil_iff.mpr fun _ _ => rfl

/-- A step of a dispatch warns of no drop. -/
theorem stepJob_warnings (j : Journal) (job : Job) :
    (j.stepJob job).2.warnings = j.warnings := by
  cases job with
  | calling r next result =>
      refine (j.stepJob_adds (.calling r next result)).warnings ?_
      simp only [Job.notices]
      cases j.delegate.sinks[next]? with
      | some sink => exact Handover.filterMap_notices _ r next fun _ => Sink.warned_of_mem
      | none =>
          rw [List.filterMap_map]
          exact List.filterMap_eq_nil_iff.mpr fun _ _ => rfl
  | finishing r result => exact finish_warnings j r _

end Journal

/-! ## §2. Steps without a drop. -/

namespace Background

variable {b b' b'' : Background}

/-- No drop is counted, and none is warned of. -/
structure Dropless (b b' : Background) : Prop where
  dropped : b'.queue.stats.dropped = b.queue.stats.dropped
  warnEvery : b'.queue.warnEvery = b.queue.warnEvery
  lastWarned : b'.queue.lastWarned = b.queue.lastWarned
  warnings : b'.journal.warnings = b.journal.warnings

namespace Dropless

theorem refl (b : Background) : Dropless b b := ⟨rfl, rfl, rfl, rfl⟩

theorem trans (h : Dropless b b') (h' : Dropless b' b'') : Dropless b b'' :=
  ⟨h'.dropped.trans h.dropped, h'.warnEvery.trans h.warnEvery, h'.lastWarned.trans h.lastWarned,
    h'.warnings.trans h.warnings⟩

end Dropless

theorem finish_dropless (b : Background) (r : Record) (disposition : Disposition) :
    Dropless b (b.finish r disposition) :=
  ⟨rfl, rfl, rfl, b.journal.finish_warnings r disposition⟩

theorem dropAll_dropless (b : Background) (records : List Record) :
    Dropless b (b.dropAll records) := by
  induction records generalizing b with
  | nil => exact .refl b
  | cons r rest ih => exact (finish_dropless b r .dropped).trans (ih _)

/-- Where only the worker, the state and other counters changed, the warnings alone are in
question. -/
theorem Dropless.of_queue {stats : QueueStats} {channel : List Record} {worker : Worker}
    {state : LoggerState} (hqueue : b'.queue = { b.queue with stats, channel, worker, state })
    (hdropped : stats.dropped = b.queue.stats.dropped)
    (hwarnings : b'.journal.warnings = b.journal.warnings) : Dropless b b' :=
  ⟨by rw [hqueue]; exact hdropped, by rw [hqueue], by rw [hqueue], hwarnings⟩

/-- The worker drops nothing. -/
theorem work_dropless (h : b.work = some b') : Dropless b b' := by
  cases work_worked h with
  | receives hworker hchannel hqueue hjournal => exact .of_queue hqueue rfl (by rw [hjournal])
  | leaves hworker hchannel hclosed hqueue hjournal =>
      exact .of_queue hqueue rfl (by rw [hjournal])
  | prepares hworker hworker' hsteady hqueue hstate hjournal =>
      exact .of_queue hqueue rfl (by rw [hjournal]; rfl)
  | begins hworker hworker' hsteady hqueue hjournal =>
      exact .of_queue hqueue rfl (by rw [hjournal, b.journal.enter_adds.warnings rfl])
  | calls hworker hjob hqueue =>
      rename_i job next
      have hwarnings := b.journal.stepJob_warnings job
      rw [hjob] at hwarnings
      exact .of_queue hqueue rfl hwarnings
  | returns hworker hjob hqueue =>
      rename_i job result
      have hwarnings := b.journal.stepJob_warnings job
      rw [hjob] at hwarnings
      exact .of_queue hqueue rfl hwarnings
  | counts hworker hworker' hsteady hqueue hjournal =>
      exact .of_queue hqueue rfl (by rw [hjournal]; rfl)
  | rests hworker hworker' hsteady hqueue hstate hjournal =>
      exact .of_queue hqueue rfl (by rw [hjournal])

/-- Nor does a dispatch that outlived it. -/
theorem workDetached_dropless (h : b.workDetached = some b') : Dropless b b' := by
  have hwarnings : b'.journal.warnings = b.journal.warnings := by
    cases workDetached_outlived h with
    | calls hdetached hjob hqueue =>
        rename_i job next rest
        have hstep := b.journal.stepJob_warnings job
        rwa [hjob] at hstep
    | returns hdetached hjob hqueue =>
        rename_i job result rest
        have hstep := b.journal.stepJob_warnings job
        rwa [hjob] at hstep
  obtain ⟨detached, hqueue⟩ := workDetached_queue h
  exact ⟨by rw [hqueue], by rw [hqueue], by rw [hqueue], hwarnings⟩

end Background

/-- What a shutdown discards is not counted as dropped. -/
theorem Shutdown.Stopped.dropless {b b' : Background} {sh sh' : Shutdown}
    (h : Stopped b b' sh sh') : b.Dropless b' := by
  cases h with
  | aborts habort =>
      obtain ⟨-, rfl⟩ := Background.abort?_eq habort
      have hall := Background.dropAll_dropless { b with queue := { b.queue with
        channel := [], worker := .aborted, detached := b.queue.detached ++ b.queue.worker.jobs } }
        b.queue.channel
      exact ⟨hall.dropped, hall.warnEvery, hall.lastWarned, hall.warnings⟩
  | closes hb => subst hb; exact ⟨rfl, rfl, rfl, rfl⟩
  | drains hb => subst hb; exact ⟨rfl, rfl, rfl, rfl⟩
  | waits hhandle hb => subst hb; exact ⟨rfl, rfl, rfl, rfl⟩
  | skips hhandle hb => subst hb; exact ⟨rfl, rfl, rfl, rfl⟩
  | sees hworker hb => subst hb; exact ⟨rfl, rfl, rfl, rfl⟩
  | ends hb => subst hb; exact ⟨rfl, rfl, rfl, rfl⟩

/-! ## §3. Steps of a drop. -/

namespace Submission

/-- The number of a drop that is counted and may yet be warned of. -/
def pending : Submission → List Nat
  | .tallied _ _ total => [total]
  | .weighed _ _ total _ => [total]
  | _ => []

/-- The number that was looked up as that of the last warning. -/
def looked : Submission → List Nat
  | .weighed _ _ _ last => [last]
  | _ => []

/-- A submission was refused, and is not counted as a drop yet. -/
def undropped : Submission → Nat
  | .refused _ _ => 1
  | .uncounted _ _ => 1
  | _ => 0

/-- Only a drop that is pending has looked. -/
theorem looked_of_pending {s : Submission} (h : s.pending = []) : s.looked = [] := by
  cases s with
  | weighed r reason total last => cases h
  | _ => rfl

/-- What a step of a submission has to do with drops. -/
inductive Drops (b b' : Background) : Submission → Submission → Prop
  /-- Nothing, or it looks up the last warning. -/
  | beside {s s' : Submission} (hpending : s'.pending = s.pending)
      (hlooked : s'.looked ⊆ b.queue.lastWarned :: s.looked) (hlog : b.Dropless b') :
      Drops b b' s s'
  /-- The drop is counted. -/
  | tallies {r : Record} {reason : RejectReason}
      (hdropped : b'.queue.stats.dropped = b.queue.stats.dropped + 1)
      (hevery : b'.queue.warnEvery = b.queue.warnEvery)
      (hlast : b'.queue.lastWarned = b.queue.lastWarned)
      (hwarnings : b'.journal.warnings = b.journal.warnings) :
      Drops b b' (.uncounted r reason) (.tallied r reason (b.queue.stats.dropped + 1))
  /-- It is too close behind the last warning, or somebody else has warned meanwhile. -/
  | passes {r : Record} {reason : RejectReason} {total last : Nat}
      (hquiet : b.queue.isQuiet total last = true ∨ b.queue.lastWarned ≠ last) (hb : b' = b) :
      Drops b b' (.weighed r reason total last) (.releasing r)
  /-- It is warned of. -/
  | warns {r : Record} {reason : RejectReason} {total : Nat}
      (hloud : b.queue.isQuiet total b.queue.lastWarned = false)
      (hb : b' = ⟨b.journal.note [.event (.dropping r.id total reason)],
        { b.queue with lastWarned := total }⟩) :
      Drops b b' (.weighed r reason total b.queue.lastWarned) (.releasing r)

theorem step_drops (b : Background) (s : Submission) : Drops b (s.step b).2 s (s.step b).1 := by
  cases s with
  | fresh r => exact .beside rfl (List.nil_subset _) ⟨rfl, rfl, rfl, rfl⟩
  | counted r depth =>
      rcases b.queue.trySend_cases r with ⟨-, -, hsend⟩ | ⟨reason, hsend, -⟩
      · simp only [step, hsend]
        exact .beside rfl (List.nil_subset _) ⟨rfl, rfl, rfl, rfl⟩
      · simp only [step, hsend]
        exact .beside rfl (List.nil_subset _) (.refl b)
  | accepted depth => exact .beside rfl (List.nil_subset _) ⟨rfl, rfl, rfl, rfl⟩
  | refused r reason => exact .beside rfl (List.nil_subset _) ⟨rfl, rfl, rfl, rfl⟩
  | uncounted r reason => exact .tallies rfl rfl rfl rfl
  | tallied r reason total => exact .beside rfl (fun last hmem => hmem) (.refl b)
  | weighed r reason total last =>
      simp only [step]
      split
      next hquiet =>
        rw [Bool.or_eq_true, decide_eq_true_eq] at hquiet
        exact .passes hquiet rfl
      next hloud =>
        rw [Bool.or_eq_true, decide_eq_true_eq, not_or, Bool.not_eq_true, not_not] at hloud
        obtain ⟨hloud, rfl⟩ := hloud
        exact .warns hloud rfl
  | releasing r => exact .beside rfl (List.nil_subset _) (b.finish_dropless r .dropped)
  | done => exact .beside rfl (List.nil_subset _) (.refl b)

/-- Each record that is turned away is counted as a drop, sooner or later. -/
theorem step_undropped (b : Background) (s : Submission) :
    (s.step b).2.queue.stats.dropped + (s.step b).1.undropped
      = b.queue.stats.dropped + s.undropped + (s.turnedAway b).length := by
  cases s with
  | counted r depth =>
      rcases b.queue.trySend_cases r with ⟨-, -, hsend⟩ | ⟨reason, hsend, -⟩
      · simp only [step, turnedAway, hsend]
        rfl
      · simp only [step, turnedAway, hsend]
        rfl
  | weighed r reason total last =>
      simp only [step]
      split
      next => rfl
      next => rfl
  | _ => rfl

end Submission

/-- About a number below the largest one, a sum that is cut there decides as the full sum does. -/
theorem Queue.isQuiet_iff (q : Queue) {total : Nat} (h : total < UInt64.size - 1) (last : Nat) :
    q.isQuiet total last = true ↔ last ≠ 0 ∧ total < last + q.warnEvery := by
  unfold isQuiet
  rw [Bool.and_eq_true, decide_eq_true_eq, bne_iff_ne, Nat.lt_min]
  constructor
  · rintro ⟨⟨hclose, -⟩, hne⟩
    exact ⟨hne, hclose⟩
  · rintro ⟨hne, hclose⟩
    exact ⟨⟨hclose, h⟩, hne⟩

namespace Closing

variable {a a' : Closing} {earlier totals : List Nat} {gap : Nat}

/-- The numbers of the drops that are counted and may yet be warned of. -/
def pending (a : Closing) : List Nat := a.submissions.flatMap Submission.pending

/-- The numbers that were looked up by those. -/
def looked (a : Closing) : List Nat := a.submissions.flatMap Submission.looked

/-- Only a drop that is pending has looked. -/
theorem looked_of_pending (h : a.pending = []) : a.looked = [] :=
  List.flatMap_eq_nil_iff.mpr fun s hs =>
    Submission.looked_of_pending (List.flatMap_eq_nil_iff.mp h s hs)

/-- What a step has to do with drops. -/
inductive Drops (a a' : Closing) : Prop
  | beside (hlog : a.log.Dropless a'.log) (hpending : a'.pending.Perm a.pending)
  /-- A drop is counted. -/
  | tallies (hdropped : a'.log.queue.stats.dropped = a.log.queue.stats.dropped + 1)
      (hevery : a'.log.queue.warnEvery = a.log.queue.warnEvery)
      (hlast : a'.log.queue.lastWarned = a.log.queue.lastWarned)
      (hwarnings : a'.log.journal.warnings = a.log.journal.warnings)
      (hpending : a'.pending.Perm ((a.log.queue.stats.dropped + 1) :: a.pending))
  /-- One is not warned of. -/
  | passes {total last : Nat} (hlooked : last ∈ a.looked)
      (hquiet : a.log.queue.isQuiet total last = true ∨ a.log.queue.lastWarned ≠ last)
      (hlog : a'.log = a.log) (hpending : a.pending.Perm (total :: a'.pending))
  /-- One is warned of. -/
  | warns {total : Nat} (hloud : a.log.queue.isQuiet total a.log.queue.lastWarned = false)
      (hdropped : a'.log.queue.stats.dropped = a.log.queue.stats.dropped)
      (hevery : a'.log.queue.warnEvery = a.log.queue.warnEvery)
      (hlast : a'.log.queue.lastWarned = total)
      (hwarnings : a'.log.journal.warnings = a.log.journal.warnings ++ [total])
      (hpending : a.pending.Perm (total :: a'.pending))

theorem step_drops (hstep : Step a a') : Drops a a' := by
  cases hstep with
  | work hb => exact .beside (Background.work_dropless hb) (List.Perm.refl _)
  | outlive hb => exact .beside (Background.workDetached_dropless hb) (List.Perm.refl _)
  | shutdown expired hcall hs =>
      exact .beside (Shutdown.step_stopped hs).dropless (List.Perm.refl _)
  | lapse hcall hworker => exact .beside (.refl a.log) (List.Perm.refl _)
  | submit hs hbusy =>
      rename_i k s
      -- the numbers of the others are the same before and after
      obtain ⟨others, hbefore, hafter⟩ :=
        flatMap_set_perm hs (s.step a.log).1 Submission.pending
      have hdrops := s.step_drops a.log
      generalize s.step a.log = next at hafter hdrops ⊢
      obtain ⟨s', b⟩ := next
      cases hdrops with
      | beside hpending hlooked hlog =>
          rw [hpending] at hafter
          exact .beside hlog (hafter.trans hbefore.symm)
      | tallies hdropped hevery hlast hwarnings =>
          exact .tallies hdropped hevery hlast hwarnings (hafter.trans (hbefore.symm.cons _))
      | passes hquiet hb =>
          rename_i r reason total last
          have hlooked : last ∈ a.looked :=
            List.mem_flatMap.mpr ⟨_, List.mem_of_getElem? hs, List.mem_singleton_self last⟩
          exact .passes hlooked hquiet hb (hbefore.trans (hafter.symm.cons total))
      | warns hloud hb =>
          rename_i r reason total
          subst hb
          exact .warns hloud rfl rfl rfl ((a.log.journal.note_adds _).filterMap Notice.warned?)
            (hbefore.trans (hafter.symm.cons total))

/-- Who has looked in a step has seen the number of the last warning. -/
theorem step_looked (hstep : Step a a') {last : Nat} (hlast : last ∈ a'.looked) :
    last ∈ a.looked ∨ last = a.log.queue.lastWarned := by
  cases hstep with
  | submit hs hbusy =>
      rename_i k s
      obtain ⟨other, hother, hmem⟩ := List.mem_flatMap.mp hlast
      rcases List.mem_or_eq_of_mem_set hother with hold | rfl
      · exact Or.inl (List.mem_flatMap.mpr ⟨other, hold, hmem⟩)
      · have hsame : last ∈ s.looked → last ∈ a.looked := fun hmem =>
          List.mem_flatMap.mpr ⟨s, List.mem_of_getElem? hs, hmem⟩
        have hdrops := s.step_drops a.log
        generalize s.step a.log = next at hmem hdrops
        obtain ⟨s', b⟩ := next
        cases hdrops with
        | beside hpending hlooked hlog =>
            rcases List.mem_cons.mp (hlooked hmem) with hnow | hold
            · exact Or.inr hnow
            · exact Or.inl (hsame hold)
        | tallies hdropped hevery hlast hwarnings => cases hmem
        | passes hquiet hb => cases hmem
        | warns hloud hb => cases hmem
  | work hb => exact Or.inl hlast
  | outlive hb => exact Or.inl hlast
  | shutdown expired hcall hs => exact Or.inl hlast
  | lapse hcall hworker => exact Or.inl hlast

/-! ## §4. Warnings stay apart. -/

/-- Where a log has warned of the drops `totals`, and all `earlier` ones were before. -/
structure Spaced (every : Nat) (earlier totals : List Nat) (a : Closing) : Prop where
  warnings : a.log.journal.warnings = earlier ++ totals
  warnEvery : a.log.queue.warnEvery = every
  lastWarned : a.log.queue.lastWarned = totals.getLast?.getD 0
  apart : totals.Pairwise fun m n => m < n ∧ m + every ≤ n
  /-- Each drop has a number of its own. -/
  distinct : (a.pending ++ totals).Nodup
  within : ∀ n ∈ a.pending ++ totals, 0 < n ∧ n ≤ a.log.queue.stats.dropped
  looked : ∀ last ∈ a.looked, last = 0 ∨ last ∈ totals
  /-- The first drop that gets so far is warned of. -/
  silent : totals = [] → a.pending.length = a.log.queue.stats.dropped

variable {every : Nat}

/-- Of numbers that grow the last one is the largest. -/
theorem le_getLast? (h : totals.Pairwise fun m n => m < n ∧ m + every ≤ n) :
    ∀ m ∈ totals, m ≤ totals.getLast?.getD 0 := by
  intro m hm
  have hne : totals ≠ [] := List.ne_nil_of_mem hm
  have hsplit := List.dropLast_append_getLast hne
  rw [List.getLast?_eq_some_getLast hne, Option.getD_some]
  rw [← hsplit] at h hm
  rcases List.mem_append.mp hm with hfront | hlast
  · exact ((List.pairwise_append.mp h).2.2 m hfront _ (List.mem_singleton_self _)).1.le
  · exact (List.mem_singleton.mp hlast).le

/-- The last warning was of one of the drops, if there was one. -/
theorem Spaced.lastWarned_mem (h : a.Spaced every earlier totals) :
    a.log.queue.lastWarned = 0 ∨ a.log.queue.lastWarned ∈ totals := by
  rw [h.lastWarned]
  by_cases hnone : totals = []
  · rw [hnone]
    exact Or.inl rfl
  · rw [List.getLast?_eq_some_getLast hnone]
    exact Or.inr (List.getLast_mem hnone)

/-- Who has looked has seen the number of a warning. -/
theorem Spaced.looked_step (h : a.Spaced every earlier totals) (hstep : Step a a') :
    ∀ last ∈ a'.looked, last = 0 ∨ last ∈ totals := by
  intro last hlast
  rcases step_looked hstep hlast with hold | rfl
  · exact h.looked last hold
  · exact h.lastWarned_mem

/-- A number that is far enough behind the last warning is far enough behind all of them. -/
theorem Spaced.apart_of_loud (h : a.Spaced every earlier totals) {total : Nat}
    (htotal : total ∈ a.pending) (hfew : a.log.queue.stats.dropped < UInt64.size - 1)
    (hloud : a.log.queue.isQuiet total a.log.queue.lastWarned = false) :
    ∀ m ∈ totals, m < total ∧ m + every ≤ total := by
  intro m hm
  have hbound := (h.within total (List.mem_append_left _ htotal)).2
  have hpos := (h.within m (List.mem_append_right _ hm)).1
  have hle : m ≤ a.log.queue.lastWarned := by
    rw [h.lastWarned]
    exact le_getLast? h.apart m hm
  -- the last warning was of another drop
  have hlast : a.log.queue.lastWarned ∈ totals := h.lastWarned_mem.resolve_left (by omega)
  have hother : total ≠ a.log.queue.lastWarned :=
    (List.nodup_append.mp h.distinct).2.2 total htotal _ hlast
  have hquiet := a.log.queue.isQuiet_iff (Nat.lt_of_le_of_lt hbound hfew) a.log.queue.lastWarned
  rw [hloud, h.warnEvery] at hquiet
  have hfar : ¬ (a.log.queue.lastWarned ≠ 0 ∧ total < a.log.queue.lastWarned + every) :=
    fun hclose => Bool.false_ne_true (hquiet.mpr hclose)
  omega

/-- Before the first warning nobody finds one, and so no drop passes. -/
theorem Spaced.warned_of_passes (h : a.Spaced every earlier totals) {total last : Nat}
    (htotal : total ∈ a.pending) (hfew : a.log.queue.stats.dropped < UInt64.size - 1)
    (hlooked : last ∈ a.looked)
    (hquiet : a.log.queue.isQuiet total last = true ∨ a.log.queue.lastWarned ≠ last) :
    totals ≠ [] := by
  rintro rfl
  have hbound := (h.within total (List.mem_append_left _ htotal)).2
  obtain rfl : last = 0 := (h.looked last hlooked).resolve_right List.not_mem_nil
  rcases hquiet with hquiet | hmoved
  · rw [a.log.queue.isQuiet_iff (Nat.lt_of_le_of_lt hbound hfew)] at hquiet
    exact hquiet.1 rfl
  · exact hmoved h.lastWarned

/-- **Warnings stay apart**, whoever takes the next step. -/
theorem step_spaced (h : a.Spaced every earlier totals)
    (hfew : a.log.queue.stats.dropped < UInt64.size - 1) (hstep : Step a a') :
    ∃ totals', a'.Spaced every earlier totals' := by
  have hlooked := h.looked_step hstep
  cases step_drops hstep with
  | beside hlog hpending =>
      have hnumbers := hpending.append_right totals
      refine ⟨totals, hlog.warnings.trans h.warnings, hlog.warnEvery.trans h.warnEvery,
        hlog.lastWarned.trans h.lastWarned, h.apart, hnumbers.nodup_iff.mpr h.distinct, ?_, hlooked,
        ?_⟩
      · intro n hn
        rw [hlog.dropped]
        exact h.within n (hnumbers.mem_iff.mp hn)
      · intro hnone
        rw [hpending.length_eq, hlog.dropped, h.silent hnone]
  | tallies hdropped hevery hlast hwarnings hpending =>
      have hnumbers := hpending.append_right totals
      have hfresh : a.log.queue.stats.dropped + 1 ∉ a.pending ++ totals := fun hmem =>
        Nat.not_succ_le_self _ (h.within _ hmem).2
      refine ⟨totals, hwarnings.trans h.warnings, hevery.trans h.warnEvery,
        hlast.trans h.lastWarned, h.apart,
        hnumbers.nodup_iff.mpr (List.nodup_cons.mpr ⟨hfresh, h.distinct⟩), ?_, hlooked, ?_⟩
      · intro n hn
        rw [hdropped]
        rcases List.mem_cons.mp (hnumbers.mem_iff.mp hn) with rfl | hold
        · exact ⟨Nat.succ_pos _, Nat.le_refl _⟩
        · exact ⟨(h.within n hold).1, Nat.le_succ_of_le (h.within n hold).2⟩
      · intro hnone
        rw [hpending.length_eq, hdropped, List.length_cons, h.silent hnone]
  | passes hlook hquiet hlog hpending =>
      rename_i total last
      have hnumbers := hpending.append_right totals
      have htotal : total ∈ a.pending := hpending.mem_iff.mpr List.mem_cons_self
      have hwarned := h.warned_of_passes htotal hfew hlook hquiet
      refine ⟨totals, by rw [hlog]; exact h.warnings, by rw [hlog]; exact h.warnEvery,
        by rw [hlog]; exact h.lastWarned, h.apart,
        (List.nodup_cons.mp (hnumbers.nodup_iff.mp h.distinct)).2, ?_, hlooked,
        fun hnone => absurd hnone hwarned⟩
      intro n hn
      rw [hlog]
      exact h.within n (hnumbers.mem_iff.mpr (List.mem_cons_of_mem _ hn))
  | warns hloud hdropped hevery hlast hwarnings hpending =>
      rename_i total
      have htotal : total ∈ a.pending := hpending.mem_iff.mpr List.mem_cons_self
      have hfar := h.apart_of_loud htotal hfew hloud
      -- the number goes from those of the pending drops to those of the warnings
      have hnumbers : (a'.pending ++ (totals ++ [total])).Perm (a.pending ++ totals) := by
        rw [← List.append_assoc]
        exact (List.perm_append_singleton ..).trans (hpending.append_right totals).symm
      refine ⟨totals ++ [total], ?_, hevery.trans h.warnEvery, ?_, ?_,
        hnumbers.nodup_iff.mpr h.distinct, ?_, ?_, ?_⟩
      · rw [hwarnings, h.warnings, List.append_assoc]
      · rw [hlast, List.getLast?_append]
        rfl
      · refine List.pairwise_append.mpr ⟨h.apart, List.pairwise_singleton .., ?_⟩
        intro m hm n hn
        rw [List.mem_singleton.mp hn]
        exact hfar m hm
      · intro n hn
        rw [hdropped]
        exact h.within n (hnumbers.mem_iff.mp hn)
      · intro last hmem
        exact (hlooked last hmem).imp_right (List.mem_append_left _)
      · intro hnone
        exact absurd hnone (by simp)

/-! ## §5. One behind the other. -/

/-- The first of `n` drops, and each that is a multiple of `gap` behind it. -/
def dueUpTo (gap n : Nat) : List Nat := ((List.range n).filter (· % gap = 0)).map (· + 1)

theorem dueUpTo_succ (gap n : Nat) :
    dueUpTo gap (n + 1) = dueUpTo gap n ++ if n % gap = 0 then [n + 1] else [] := by
  unfold dueUpTo
  rw [List.range_succ, List.filter_append, List.map_append]
  by_cases hdue : n % gap = 0
  · simp [hdue]
  · simp [hdue]

/-- The last of them is less than `gap` away from the next one. -/
theorem getLast?_dueUpTo (hgap : 0 < gap) (n : Nat) :
    (n = 0 ∧ (dueUpTo gap n).getLast?.getD 0 = 0)
      ∨ ∃ k, (dueUpTo gap n).getLast?.getD 0 = gap * k + 1 ∧ gap * k < n ∧ n ≤ gap * k + gap := by
  induction n with
  | zero => exact Or.inl ⟨rfl, rfl⟩
  | succ n ih =>
      refine Or.inr ?_
      rw [dueUpTo_succ]
      by_cases hdue : n % gap = 0
      · refine ⟨n / gap, ?_, ?_, ?_⟩
        · rw [if_pos hdue, List.getLast?_append, Nat.mul_div_cancel' (Nat.dvd_of_mod_eq_zero hdue)]
          rfl
        · exact Nat.lt_succ_of_le (Nat.mul_div_le n gap)
        · rw [Nat.mul_div_cancel' (Nat.dvd_of_mod_eq_zero hdue)]
          omega
      · rw [if_neg hdue, List.append_nil]
        rcases ih with ⟨rfl, -⟩ | ⟨k, hlast, hbelow, habove⟩
        · exact absurd (Nat.zero_mod gap) hdue
        · refine ⟨k, hlast, by omega, ?_⟩
          have hne : n ≠ gap * k + gap := by
            rintro rfl
            rw [Nat.add_mod_right, Nat.mul_mod_right] at hdue
            exact hdue rfl
          omega

/-- A drop is due where it is `gap` behind the one that was due last. -/
theorem due_iff (hgap : 0 < gap) (n : Nat) : n % gap = 0 ↔
    (dueUpTo gap n).getLast?.getD 0 = 0 ∨ (dueUpTo gap n).getLast?.getD 0 + gap ≤ n + 1 := by
  rcases getLast?_dueUpTo hgap n with ⟨rfl, hnone⟩ | ⟨k, hlast, hbelow, habove⟩
  · simp [hnone]
  · rw [hlast]
    constructor
    · intro hdue
      -- a multiple of the gap in this range is the upper end
      have hmultiple : gap * (n / gap) = n := Nat.mul_div_cancel' (Nat.dvd_of_mod_eq_zero hdue)
      have hmore : k < n / gap := Nat.lt_of_mul_lt_mul_left (by rw [hmultiple]; exact hbelow)
      have hend : gap * (k + 1) ≤ gap * (n / gap) := Nat.mul_le_mul_left gap hmore
      rw [Nat.mul_add, Nat.mul_one, hmultiple] at hend
      omega
    · intro hfar
      have hend : n = gap * k + gap := by omega
      rw [hend, Nat.add_mod_right, Nat.mul_mod_right]

/-- The queue is loud just where a drop is due. -/
theorem isQuiet_lastDue {q : Queue} {n : Nat} (hfew : n + 1 < UInt64.size - 1)
    (hlast : q.lastWarned = (dueUpTo (max q.warnEvery 1) n).getLast?.getD 0) :
    q.isQuiet (n + 1) q.lastWarned = false ↔ n % max q.warnEvery 1 = 0 := by
  have hgap : 0 < max q.warnEvery 1 := Nat.lt_of_lt_of_le Nat.one_pos (Nat.le_max_right ..)
  have hle : q.lastWarned ≤ n := by
    rw [hlast]
    rcases getLast?_dueUpTo hgap n with ⟨rfl, hnone⟩ | ⟨k, hk, hbelow, -⟩
    · exact hnone.le
    · rw [hk]
      exact hbelow
  rw [due_iff hgap, ← hlast, ← Bool.not_eq_true, q.isQuiet_iff hfew]
  omega

/-- Where the drops up to `done` were weighed one behind the other, and at most one more is
counted. -/
structure Orderly (every : Nat) (earlier : List Nat) (done : Nat) (a : Closing) : Prop where
  dropped : a.log.queue.stats.dropped = done + a.pending.length
  warnings : a.log.journal.warnings = earlier ++ dueUpTo (max every 1) done
  warnEvery : a.log.queue.warnEvery = every
  lastWarned : a.log.queue.lastWarned = (dueUpTo (max every 1) done).getLast?.getD 0
  single : a.pending.length ≤ 1
  newest : ∀ n ∈ a.pending, n = done + 1
  looked : ∀ last ∈ a.looked, last = a.log.queue.lastWarned

/-- The drop that is weighed is the newest one, and no other is counted. -/
theorem Orderly.weighed {done total : Nat} {rest : List Nat} (h : a.Orderly every earlier done)
    (hpending : a.pending.Perm (total :: rest)) :
    total = done + 1 ∧ rest = [] ∧ a.log.queue.stats.dropped = done + 1 := by
  have hlength := hpending.length_eq
  have hsingle := h.single
  rw [List.length_cons] at hlength
  have hrest : rest.length = 0 := by omega
  refine ⟨h.newest total (hpending.mem_iff.mpr List.mem_cons_self),
    List.eq_nil_of_length_eq_zero hrest, ?_⟩
  rw [h.dropped, hlength, hrest]

/-- It is warned of just where it is due. -/
theorem Orderly.loud_iff {done : Nat} (h : a.Orderly every earlier done)
    (hfew : done + 1 < UInt64.size - 1) :
    a.log.queue.isQuiet (done + 1) a.log.queue.lastWarned = false ↔ done % max every 1 = 0 := by
  have hlast := h.lastWarned
  rw [← h.warnEvery] at hlast ⊢
  exact isQuiet_lastDue hfew hlast

/-- **Of drops that are weighed one behind the other, those that are due are warned of.** -/
theorem step_orderly {done : Nat} (h : a.Orderly every earlier done)
    (hfew : a.log.queue.stats.dropped < UInt64.size - 1) (hstep : Step a a')
    (hsingle : a'.pending.length ≤ 1) : ∃ done', a'.Orderly every earlier done' := by
  have hlooked : ∀ last ∈ a'.looked, last = a.log.queue.lastWarned := fun last hmem =>
    (step_looked hstep hmem).elim (h.looked last) id
  cases step_drops hstep with
  | beside hlog hpending =>
      refine ⟨done, ?_, hlog.warnings.trans h.warnings, hlog.warnEvery.trans h.warnEvery,
        hlog.lastWarned.trans h.lastWarned, hsingle, ?_, ?_⟩
      · rw [hlog.dropped, hpending.length_eq]
        exact h.dropped
      · exact fun n hn => h.newest n (hpending.mem_iff.mp hn)
      · rw [hlog.lastWarned]
        exact hlooked
  | tallies hdropped hevery hlast hwarnings hpending =>
      -- no other drop was counted
      have hlength := hpending.length_eq
      rw [List.length_cons] at hlength
      have hnone : a.pending = [] := List.eq_nil_of_length_eq_zero (by omega)
      have hdone : a.log.queue.stats.dropped = done := by rw [h.dropped, hnone]; rfl
      rw [hnone, hdone] at hpending
      refine ⟨done, ?_, hwarnings.trans h.warnings, hevery.trans h.warnEvery,
        hlast.trans h.lastWarned, hsingle, ?_, ?_⟩
      · rw [hdropped, hdone, hpending.length_eq]
        rfl
      · exact fun n hn => List.mem_singleton.mp (hpending.mem_iff.mp hn)
      · rw [hlast]
        exact hlooked
  | passes hlook hquiet hlog hpending =>
      rename_i total last
      obtain ⟨rfl, hnone, hdropped⟩ := h.weighed hpending
      obtain rfl := h.looked last hlook
      have hnotdue : ¬ done % max every 1 = 0 := by
        rw [← h.loud_iff (by omega), Bool.not_eq_false]
        exact hquiet.resolve_right (absurd rfl)
      refine ⟨done + 1, ?_, ?_, ?_, ?_, hsingle, ?_, ?_⟩
      · rw [hlog, hnone]
        exact hdropped
      · rw [hlog, dueUpTo_succ, if_neg hnotdue, List.append_nil]
        exact h.warnings
      · rw [hlog]
        exact h.warnEvery
      · rw [hlog, dueUpTo_succ, if_neg hnotdue, List.append_nil]
        exact h.lastWarned
      · simp [hnone]
      · rw [hlog]
        exact hlooked
  | warns hloud hdropped' hevery hlast hwarnings hpending =>
      rename_i total
      obtain ⟨rfl, hnone, hdropped⟩ := h.weighed hpending
      have hdue : done % max every 1 = 0 := (h.loud_iff (by omega)).mp hloud
      refine ⟨done + 1, ?_, ?_, hevery.trans h.warnEvery, ?_, hsingle, ?_, ?_⟩
      · rw [hdropped', hnone]
        exact hdropped
      · rw [hwarnings, h.warnings, dueUpTo_succ, if_pos hdue, List.append_assoc]
      · rw [hlast, dueUpTo_succ, if_pos hdue, List.getLast?_append]
        rfl
      · simp [hnone]
      · simp [looked_of_pending hnone]

/-! ## §6. Runs. -/

/-- A run in which drops are weighed one behind the other: each is weighed before the next one is
counted. -/
abbrev SerialRun : Closing → Closing → Prop :=
  Relation.ReflTransGen fun a a' => Step a a' ∧ a'.pending.length ≤ 1

theorem SerialRun.run (h : SerialRun a a') : Run a a' :=
  Relation.ReflTransGen.mono (fun _ _ hstep => hstep.1) _ _ h

/-- No drop is taken back. -/
theorem step_dropped (hstep : Step a a') :
    a.log.queue.stats.dropped ≤ a'.log.queue.stats.dropped := by
  cases step_drops hstep with
  | beside hlog hpending => exact hlog.dropped.ge
  | tallies hdropped hevery hlast hwarnings hpending =>
      rw [hdropped]
      exact Nat.le_succ _
  | passes hlook hquiet hlog hpending => rw [hlog]
  | warns hloud hdropped hevery hlast hwarnings hpending => exact hdropped.ge

/-- A record that is refused is counted as a drop, or is to be. -/
def Refuses (a : Closing) : Prop :=
  a.log.queue.stats.dropped + (a.submissions.map Submission.undropped).sum = a.refused.length

theorem step_refuses (h : a.Refuses) (hstep : Step a a') : a'.Refuses := by
  unfold Refuses at h ⊢
  cases hstep with
  | submit hs hbusy =>
      rename_i k s
      have hcount := s.step_undropped a.log
      have hsum := Logging.sum_map_set hs (s.step a.log).1 Submission.undropped
      rw [List.length_append]
      dsimp only
      omega
  | work hb => exact (Background.work_dropless hb).dropped ▸ h
  | outlive hb => exact (Background.workDetached_dropless hb).dropped ▸ h
  | shutdown expired hcall hs => exact (Shutdown.step_stopped hs).dropless.dropped ▸ h
  | lapse hcall hworker => exact h

variable {capacity warnEvery : Nat} {q : Queue}

/-- Before anything was done, nothing is pending and nothing was looked up. -/
theorem start_none (j : Journal) (q : Queue) (records : List Record) (calls : Nat) :
    (start j q records calls).pending = [] ∧ (start j q records calls).looked = []
      ∧ ((start j q records calls).submissions.map Submission.undropped).sum = 0 := by
  unfold pending looked start
  induction records with
  | nil => exact ⟨rfl, rfl, rfl⟩
  | cons r rest ih => exact ⟨ih.1, ih.2.1, by simpa [Submission.undropped] using ih.2.2⟩

/-- A new queue has counted no drop and has not warned. -/
theorem start_unwarned (hq : Queue.ofCapacity? capacity warnEvery = some q) :
    q.stats.dropped = 0 ∧ q.warnEvery = warnEvery ∧ q.lastWarned = 0 := by
  unfold Queue.ofCapacity? at hq
  split at hq
  next => cases hq
  next =>
    cases hq
    exact ⟨rfl, rfl, rfl⟩

theorem start_spaced (hq : Queue.ofCapacity? capacity warnEvery = some q) (j : Journal)
    (records : List Record) (calls : Nat) :
    (start j q records calls).Spaced warnEvery j.warnings [] := by
  obtain ⟨hdropped, hevery, hlast⟩ := start_unwarned hq
  obtain ⟨hpending, hlooked, -⟩ := start_none j q records calls
  constructor
  case warnings => exact (List.append_nil _).symm
  case warnEvery => exact hevery
  case lastWarned => exact hlast
  case apart => exact .nil
  case distinct => simp [hpending]
  case within => simp [hpending]
  case looked => simp [hlooked]
  case silent => exact fun _ => by rw [hpending]; exact hdropped.symm

theorem start_orderly (hq : Queue.ofCapacity? capacity warnEvery = some q) (j : Journal)
    (records : List Record) (calls : Nat) :
    (start j q records calls).Orderly warnEvery j.warnings 0 := by
  obtain ⟨hdropped, hevery, hlast⟩ := start_unwarned hq
  obtain ⟨hpending, hlooked, -⟩ := start_none j q records calls
  constructor
  case dropped => rw [hpending]; exact hdropped
  case warnings => exact (List.append_nil _).symm
  case warnEvery => exact hevery
  case lastWarned => exact hlast
  case single => simp [hpending]
  case newest => simp [hpending]
  case looked => simp [hlooked]

theorem start_refuses (hq : Queue.ofCapacity? capacity warnEvery = some q) (j : Journal)
    (records : List Record) (calls : Nat) : (start j q records calls).Refuses := by
  unfold Refuses
  rw [(start_none j q records calls).2.2]
  exact (start_unwarned hq).1

theorem run_refuses (h : a.Refuses) (hrun : Run a a') : a'.Refuses := by
  induction hrun with
  | refl => exact h
  | tail hrun hstep ih => exact step_refuses ih hstep

theorem run_spaced (h : a.Spaced every earlier totals) (hrun : Run a a')
    (hfew : a'.log.queue.stats.dropped < UInt64.size - 1) :
    ∃ totals', a'.Spaced every earlier totals' := by
  induction hrun with
  | refl => exact ⟨totals, h⟩
  | tail hrun hstep ih =>
      have hbefore := Nat.lt_of_le_of_lt (step_dropped hstep) hfew
      obtain ⟨totals', h'⟩ := ih hbefore
      exact step_spaced h' hbefore hstep

theorem run_orderly {done : Nat} (h : a.Orderly every earlier done) (hrun : SerialRun a a')
    (hfew : a'.log.queue.stats.dropped < UInt64.size - 1) :
    ∃ done', a'.Orderly every earlier done' := by
  induction hrun with
  | refl => exact ⟨done, h⟩
  | tail hrun hstep ih =>
      have hbefore := Nat.lt_of_le_of_lt (step_dropped hstep.1) hfew
      obtain ⟨done', h'⟩ := ih hbefore
      exact step_orderly h' hbefore hstep.1 hstep.2

/-- **Warnings of drops are rare, and come when they are due**, whatever the capacity, the gap and
the records, in every order of steps.  Any two are at least the gap apart, and the first drop that
is weighed leaves a warning.  Where drops are weighed one behind the other, the first one and each
that is a multiple of the gap behind it is warned of, and no other. -/
theorem warnings_apart (hq : Queue.ofCapacity? capacity warnEvery = some q) (j : Journal)
    (records : List Record) (calls : Nat) (a : Closing)
    (hrun : Run (start j q records calls) a) (hfew : a.refused.length < UInt64.size - 1) :
    (∃ totals, a.log.journal.warnings = j.warnings ++ totals
      ∧ (totals.Pairwise fun m n => m < n ∧ m + max warnEvery 1 ≤ n)
      ∧ (∀ n ∈ totals, 0 < n ∧ n ≤ a.log.queue.stats.dropped)
      ∧ (a.pending.length < a.log.queue.stats.dropped → totals ≠ []))
    ∧ (SerialRun (start j q records calls) a → a.log.journal.warnings = j.warnings
        ++ dueUpTo (max warnEvery 1) (a.log.queue.stats.dropped - a.pending.length)) := by
  have hrefuses : a.Refuses := run_refuses (start_refuses hq j records calls) hrun
  have hdropped : a.log.queue.stats.dropped < UInt64.size - 1 :=
    Nat.lt_of_le_of_lt (Nat.le.intro hrefuses) hfew
  constructor
  · obtain ⟨totals, h⟩ := run_spaced (start_spaced hq j records calls) hrun hdropped
    refine ⟨totals, h.warnings, h.apart.imp fun ⟨hless, hgap⟩ => ⟨hless, by omega⟩,
      fun n hn => h.within n (List.mem_append_right _ hn), fun hpassed hnone => ?_⟩
    exact absurd (h.silent hnone) hpassed.ne
  · intro hserial
    obtain ⟨done, h⟩ := run_orderly (start_orderly hq j records calls) hserial hdropped
    rw [h.warnings, h.dropped, Nat.add_sub_cancel]

/-- The submission at a position takes its next step. -/
def advance (a : Closing) (k : Nat) : Closing :=
  match a.submissions[k]? with
  | none => a
  | some s =>
    { a with
      log := (s.step a.log).2
      submissions := a.submissions.set k (s.step a.log).1
      accepted := a.accepted ++ s.taken a.log
      refused := a.refused ++ s.turnedAway a.log
      report := s.report?.or a.report }

/-- Whether these submissions can take their next steps in this order, and each drop is weighed
before the next one is counted. -/
def isSerial : List Nat → Closing → Bool
  | [], _ => true
  | k :: order, a =>
    a.submissions[k]?.any (!·.isDone) && (a.advance k).pending.length ≤ 1
      && isSerial order (a.advance k)

theorem step_advance {k : Nat} (h : a.submissions[k]?.any (!·.isDone) = true) :
    Step a (a.advance k) := by
  unfold advance
  cases hs : a.submissions[k]? with
  | none =>
      rw [hs] at h
      cases h
  | some s =>
      rw [hs] at h
      refine .submit hs ?_
      rintro rfl
      cases h

theorem serialRun_of_isSerial {order : List Nat} (h : isSerial order a = true) :
    SerialRun a (order.foldl advance a) := by
  induction order generalizing a with
  | nil => exact .refl
  | cons k order ih =>
      simp only [isSerial, Bool.and_eq_true, decide_eq_true_eq] at h
      exact (ih h.2).head ⟨step_advance h.1.1, h.1.2⟩

/-- Four records for a queue with room for one, and a warning at every second drop: the first
and the third drop are warned of. -/
theorem warnings_apart_of_three :
    let j : Journal := ⟨⟨.ofDirectories [["b"]] [], ⟨true, .ofText "/b", 4, .both ∅⟩, .zero⟩,
      ⟨[.events], [], .idle, 0⟩, []⟩
    let records : List Record :=
      ["w", "x", "y", "z"].map fun id => Record.new ⟨id⟩ "GET" "/" ⟨0, 0⟩
    ∃ q a, Queue.ofCapacity? 1 2 = some q ∧ SerialRun (start j q records 0) a
      ∧ a.refused.length = 3 ∧ a.log.journal.warnings = [1, 3] := by
  intro j records
  have hq : Queue.ofCapacity? 1 2
      = some ⟨1, 2, 0, true, [], ⟨0, 0, 0, 0, 0⟩, .idle, .waiting, true, []⟩ := rfl
  -- each record goes all its way before the next one
  let order : List Nat :=
    [0, 0, 0] ++ List.replicate 6 1 ++ List.replicate 6 2 ++ List.replicate 6 3
  let first :=
    start j ⟨1, 2, 0, true, [], ⟨0, 0, 0, 0, 0⟩, .idle, .waiting, true, []⟩ records 0
  let a := order.foldl advance first
  have hserial : SerialRun first a := serialRun_of_isSerial (by decide +kernel)
  have hrefused : a.refused.length = 3 := by decide +kernel
  have hdropped : a.log.queue.stats.dropped - a.pending.length = 3 := by decide +kernel
  have hfew : a.refused.length < UInt64.size - 1 := by rw [hrefused]; decide
  have hwarned := (warnings_apart hq j records 0 a hserial.run hfew).2 hserial
  rw [hdropped] at hwarned
  exact ⟨_, a, hq, hserial, hrefused, hwarned⟩

end Closing

end Wiretap
