/-
  Wiretap.Proofs.Freeze
  ─────────────────────
  **A COMPLETED EXCHANGE IS FROZEN UNTIL ITS RECORD ENDS.**

  From the moment where all taps of an exchange are closed, no chunk is written for it, its
  buffers stay as they are whatever other exchanges do, every sink that gets its record reads
  what they hold, and once the record has ended there are no buffers of it ever again:

    • `Scene.step_sealed`  — closed taps stay closed, and no others come,
    • `Scene.Orderly.step` — custody is kept by every step,
    • `Scene.Still.step`   — frozen buffers stay frozen,
    • `Scene.run_frozen`   — what this means for every run.
-/
import Mathlib.Data.List.Nodup
import Wiretap.Proofs.Scene

namespace Wiretap.Scene

open Journal

variable {σ σ' : Scene} {k : Nat} {id : ExchangeId} {phase phase' : Phase}

/-! ## §1. Closed taps. -/

/-- All taps of an exchange are closed for good. -/
def Sealed (σ : Scene) (id : ExchangeId) : Prop :=
  ∀ task ∈ σ.tasks, task.id = id → task.phase.IsSealed

theorem sealed_put (h : σ.Sealed id) {other : ExchangeId}
    (hk : σ.tasks[k]? = some ⟨other, phase⟩) (traffic : Traffic)
    (hphase : phase.IsSealed → phase'.IsSealed) :
    (({ σ with traffic } : Scene).put k other phase').Sealed id := by
  intro task hmem hid
  rcases mem_put hmem with rfl | hmem
  · exact hphase (h _ (List.mem_of_getElem? hk) hid)
  · exact h task hmem hid

/-- Closed taps stay closed, and no other tap comes. -/
theorem step_sealed (h : σ.Sealed id) (hid : id ∈ σ.known) (hstep : Step σ σ') :
    σ'.Sealed id := by
  cases hstep with
  | begins hnew =>
      intro task hmem heq
      rcases List.mem_append.mp hmem with hmem | hmem
      · exact h task hmem heq
      · cases List.mem_singleton.mp hmem
        rw [← heq] at hid
        exact absurd hid hnew
  | registers hk d => exact sealed_put h hk _ False.elim
  | writes number chunk => exact h
  | edits hk hf => exact sealed_put h hk σ.traffic False.elim
  | takes hk exception elapsed => exact sealed_put h hk σ.traffic False.elim
  | closes hk => exact sealed_put h hk _ fun hnil => nomatch hnil
  | hands hk => exact sealed_put h hk σ.traffic fun _ => (σ.handover_spec _).2.2
  | refuses hk hstopped => exact sealed_put h hk _ fun _ => trivial
  | enters hk => exact sealed_put h hk _ fun _ => trivial
  | calls hk hjob => exact sealed_put h hk _ fun _ => trivial
  | returns hk hjob => exact sealed_put h hk _ fun _ => trivial
  | submits hk hbusy hb => exact sealed_put h hk _ fun _ => trivial
  | stops => exact h
  | works hb hwork => exact h
  | outlives hb hwork => exact h
  | shuts hb hshut => exact h
  | lapses hb hwaiting hworker => exact h

theorem taps_of_isSealed (h : phase.IsSealed) : phase.taps = [] := by
  cases phase with
  | underWay guard => exact h.elim
  | closing e taps => exact h
  | _ => rfl

/-- What arrives at a tap of an exchange with closed taps is not written. -/
theorem writeTap_sealed (h : σ.Wired) (hsealed : σ.Sealed id) {number : Nat} {tap : Tap}
    (htap : σ.traffic.taps[number]? = some tap) (hid : tap.id = id) (chunk : Bytes) :
    σ.traffic.writeTap number chunk = σ.traffic := by
  -- an open tap would belong to an exchange that has one left to close
  have hclosed : tap.closed = true := by
    by_contra hopen
    obtain ⟨task, hmem, htask, hnumber⟩ := h.taps number tap htap (by simpa using hopen)
    rw [taps_of_isSealed (hsealed task hmem (htask.trans hid))] at hnumber
    cases hnumber
  have hwrite : tap.write σ.traffic.site.journal.store chunk
      = (tap, σ.traffic.site.journal.store) := by
    unfold Tap.write
    rw [hclosed]
    rfl
  obtain ⟨hlt, hget⟩ := List.getElem?_eq_some_iff.mp htap
  unfold Traffic.writeTap
  rw [htap]
  dsimp only
  rw [hwrite, ← hget, List.set_getElem_self]
  rfl

/-! ## §2. Custody in a scene. -/

/-- What holds at every moment of a scene. -/
structure Orderly (σ : Scene) : Prop where
  wired : σ.Wired
  custody : Custody σ.waiting σ.known σ.journal σ.load

/-- A scene before anything has begun. -/
def start (site : Site) (recording : Recording) : Scene := ⟨⟨site, recording, []⟩, [], .begun⟩

/-- At the start nobody has anything. -/
theorem start_orderly {site : Site} (recording : Recording)
    (hempty : ∀ d id, site.journal.store.repository.buffer? d id = none)
    (hapart : site.journal.delegate.Apart) (hhistory : site.journal.history = [])
    (hqueue : ∀ q, site.queue = some q →
      ∃ capacity warnEvery, Queue.ofCapacity? capacity warnEvery = some q) :
    (start site recording).Orderly := by
  have hrecords : site.records = [] := by
    unfold Site.records
    cases hq : site.queue with
    | none => rfl
    | some q =>
        obtain ⟨capacity, warnEvery, hcapacity⟩ := hqueue q hq
        unfold Queue.ofCapacity? at hcapacity
        split at hcapacity
        next => cases hcapacity
        next =>
          cases hcapacity
          rfl
  have hload : (start site recording).load = [] := hrecords
  have hnotices {notice : Notice} : notice ∉ (start site recording).journal.history := by
    show notice ∉ site.journal.history
    rw [hhistory]
    exact List.not_mem_nil
  constructor
  case wired =>
    exact ⟨List.nodup_nil, (fun _ _ hmem => nomatch hmem), (fun _ hmem => nomatch hmem),
      fun _ _ htap => nomatch htap⟩
  case custody =>
    rw [hload]
    constructor
    case ready => exact ⟨.start hempty, hapart⟩
    case distinct => exact List.nodup_nil
    case begun => exact fun _ hmem => nomatch hmem
    case others => exact fun d id _ => hempty d id
    case idle => exact fun _ => hempty
    case pending => exact fun _ hmem => nomatch hmem
    case bodies => exact fun _ hmem => nomatch hmem
    case finished => exact fun _ _ _ hmem => absurd hmem hnotices
    case handed => exact fun _ _ _ hmem => absurd hmem hnotices
    case ended => exact fun _ hmem => nomatch hmem

/-- Every step keeps custody. -/
theorem Orderly.step (h : σ.Orderly) (hstep : Step σ σ') : σ'.Orderly := by
  refine ⟨step_wired h.wired hstep, ?_⟩
  cases step_moved h.wired hstep with
  | begins hnew hknown hwaiting hload hjournal =>
      rw [hknown, hwaiting, hload, hjournal]
      exact h.custody.begins hnew
  | writes hopen hknown hwaiting hload hjournal =>
      rw [hknown, hwaiting, hload, hjournal]
      obtain ⟨task, hmem, rfl, htaps⟩ := hopen
      exact h.custody.writes (mem_waiting hmem htaps) _ _ _
  | hands hknown hwaiting hload hjournal =>
      rw [hknown, hjournal]
      exact ((h.custody.reorder hwaiting.symm).assembles σ.traffic.recording).rest (.refl _)
        hload.symm
  | carries hknown hwaiting hcarries =>
      rw [hknown]
      exact (h.custody.reorder hwaiting).carries hcarries

theorem Orderly.run (h : σ.Orderly) (hrun : Run σ σ') : σ'.Orderly := by
  induction hrun with
  | refl => exact h
  | tail hrun hstep ih => exact ih.step hstep

/-! ## §3. Frozen exchanges. -/

/-- An exchange with closed taps, and what its buffers held then. -/
structure Still (earlier : Store) (id : ExchangeId) (σ : Scene) : Prop where
  known : id ∈ σ.known
  closed : σ.Sealed id
  frozen : Frozen earlier id σ.waiting σ.journal σ.load

/-- Frozen buffers stay frozen, whatever any party does. -/
theorem Still.step {earlier : Store} (hearlier : earlier.Sound) (hσ : σ.Orderly)
    (h : Still earlier id σ) (hstep : Step σ σ') : Still earlier id σ' := by
  have hclosed := step_sealed h.closed h.known hstep
  cases step_moved hσ.wired hstep with
  | begins hnew hknown hwaiting hload hjournal =>
      refine ⟨?_, hclosed, ?_⟩
      · rw [hknown]
        exact List.mem_append_left _ h.known
      · rw [hwaiting, hload, hjournal]
        refine h.frozen.regroup fun hmem => ?_
        rw [List.append_assoc] at hmem
        rcases List.mem_append.mp hmem with hmem | hmem
        · exact List.mem_append_left _ hmem
        · rcases List.mem_cons.mp hmem with heq | hmem
          · exact absurd (heq ▸ h.known) hnew
          · exact List.mem_append_right _ hmem
  | writes hopen hknown hwaiting hload hjournal =>
      refine ⟨hknown ▸ h.known, hclosed, ?_⟩
      rw [hwaiting, hload, hjournal]
      obtain ⟨task, hmem, rfl, htaps⟩ := hopen
      -- a tap of the frozen exchange would be closed
      refine h.frozen.writes hσ.custody _ (fun heq => htaps ?_) _ _
      exact taps_of_isSealed (h.closed task hmem heq.symm)
  | hands hknown hwaiting hload hjournal =>
      refine ⟨hknown ▸ h.known, hclosed, ?_⟩
      rw [hjournal]
      refine h.frozen.regroup fun hmem => ?_
      rcases List.mem_append.mp hmem with hmem | hmem
      · exact List.mem_append_left _ (hwaiting.mem_iff.mpr (List.mem_cons_of_mem _ hmem))
      · rcases List.mem_cons.mp ((hload.map Record.id).mem_iff.mp hmem) with heq | hmem
        · rw [heq]
          exact List.mem_append_left _ (hwaiting.mem_iff.mpr List.mem_cons_self)
        · exact List.mem_append_right _ hmem
  | carries hknown hwaiting hcarries =>
      refine ⟨hknown ▸ h.known, hclosed, ?_⟩
      have hnow : Frozen earlier id σ'.waiting σ.journal σ.load :=
        h.frozen.regroup fun hmem => (hwaiting.append_right _).mem_iff.mp hmem
      exact hnow.carries hearlier (hσ.custody.reorder hwaiting) hcarries

theorem Still.run {earlier : Store} (hearlier : earlier.Sound) (hσ : σ.Orderly)
    (h : Still earlier id σ) (hrun : Run σ σ') : Still earlier id σ' := by
  induction hrun with
  | refl => exact h
  | tail hrun hstep ih => exact ih.step hearlier (hσ.run hrun) hstep

/-- At the moment where its taps are closed, an exchange is as it is. -/
theorem Orderly.still (h : σ.Orderly) {e : CompletedExchange}
    (hk : σ.tasks[k]? = some ⟨id, .closing e []⟩) : Still σ.journal.store id σ := by
  have hmem := List.mem_of_getElem? hk
  have hwaits : id ∈ σ.waiting :=
    List.mem_flatMap.mpr ⟨_, hmem, List.mem_singleton_self _⟩
  constructor
  case known => exact List.mem_map.mpr ⟨_, hmem, rfl⟩
  case closed =>
    intro task htask hid
    rw [List.inj_on_of_nodup_map h.wired.distinct htask hmem hid]
    exact rfl
  case frozen =>
    refine ⟨fun _ _ _ hkeeps => hkeeps, fun sink r disk hnotice hid => ?_⟩
    rw [← hid] at hwaits
    exact absurd hwaits (h.custody.handed sink r disk hnotice).2

/-- **Completed exchanges are frozen until their records end.** -/
theorem run_frozen {site : Site} (recording : Recording)
    (hempty : ∀ d id, site.journal.store.repository.buffer? d id = none)
    (hapart : site.journal.delegate.Apart) (hhistory : site.journal.history = [])
    (hqueue : ∀ q, site.queue = some q →
      ∃ capacity warnEvery, Queue.ofCapacity? capacity warnEvery = some q)
    {σ₁ σ₂ : Scene} (hbefore : Run (start site recording) σ₁) {e : CompletedExchange}
    (hk : σ₁.tasks[k]? = some ⟨id, .closing e []⟩) (hafter : Run σ₁ σ₂) :
    (∀ (number : Nat) (tap : Tap) (chunk : Bytes), σ₂.traffic.taps[number]? = some tap →
        tap.id = id → σ₂.traffic.writeTap number chunk = σ₂.traffic)
      ∧ (∀ sink r disk, .handed sink r disk ∈ σ₂.journal.history → r.id = id →
        ∀ d, (r.body d).map (fun body => body.raw disk)
          = (σ₁.journal.store.held d id).map Except.ok)
      ∧ ((∀ finalizer disposition, .finished id finalizer disposition ∉ σ₂.journal.history) →
        ∀ d, σ₂.journal.store.held d id = σ₁.journal.store.held d id)
      ∧ (∀ finalizer disposition, .finished id finalizer disposition ∈ σ₂.journal.history →
        ∀ d, σ₂.journal.store.repository.buffer? d id = none) := by
  have h₁ : σ₁.Orderly := (start_orderly recording hempty hapart hhistory hqueue).run hbefore
  have h₂ : σ₂.Orderly := h₁.run hafter
  have hsound : σ₁.journal.store.Sound := h₁.custody.ready.store.sound
  have hstill : Still σ₁.journal.store id σ₂ := (h₁.still hk).run hsound h₁ hafter
  refine ⟨?_, hstill.frozen.told, ?_, ?_⟩
  · exact fun number tap chunk htap hid => writeTap_sealed h₂.wired hstill.closed htap hid chunk
  · intro hnone d
    -- as long as its record has not ended, the exchange waits or is in flight
    have hhas : id ∈ σ₂.waiting ++ σ₂.load.map Record.id := by
      by_contra hgone
      obtain ⟨finalizer, disposition, hnotice⟩ := h₂.custody.ended id hstill.known hgone
      exact hnone finalizer disposition hnotice
    obtain ⟨bytes, hk⟩ := hsound d id
    rw [(hstill.frozen.kept hhas d bytes hk).held, hk.held]
  · intro finalizer disposition hnotice d
    exact h₂.custody.others d id (h₂.custody.finished id finalizer disposition hnotice).2

/-- The same of two exchanges and a log that works at once: the first is logged while the
second is under way, and then a body of the second is spilled. -/
theorem run_frozen_of_two :
    let site : Site := ⟨⟨⟨.ofDirectories [["b"]] [], ⟨true, .ofText "/b", 4, .both ∅⟩, .zero⟩,
      ⟨[.events], [], .idle, 0⟩, []⟩, none⟩
    let e (id : String) : CompletedExchange := ⟨⟨id⟩, "GET", "/", "", none, some 200, .empty,
      .empty, ⟨0, 0⟩, .zero, none, none, none⟩
    ∃ σ₁ σ₂ : Scene, Run (start site ⟨default, none⟩) σ₁ ∧ Run σ₁ σ₂
      ∧ σ₁.tasks[0]? = some ⟨⟨"x"⟩, .closing (e "x") []⟩
      ∧ σ₁.journal.store.held .request ⟨"x"⟩ = some [1, 2]
      ∧ ∃ r disk, .handed 0 r disk ∈ σ₂.journal.history
        ∧ (r.body .request).map (fun body => body.raw disk) = some (.ok [1, 2])
        ∧ ∀ d, σ₂.journal.store.repository.buffer? d ⟨"x"⟩ = none := by
  intro site e
  have hruns : ∃ σ₁, Run (start site ⟨default, none⟩) σ₁
      ∧ σ₁.tasks[0]? = some ⟨⟨"x"⟩, .closing (e "x") []⟩
      ∧ σ₁.journal.store.held .request ⟨"x"⟩ = some [1, 2]
      ∧ ∃ σ₂, Run σ₁ σ₂ ∧ ∃ r disk finalizer disposition,
        .handed 0 r disk ∈ σ₂.journal.history ∧ r.id = ⟨"x"⟩
        ∧ .finished ⟨"x"⟩ finalizer disposition ∈ σ₂.journal.history :=
    ⟨_, .tail (.tail (.tail (.tail (.tail (.tail (.tail .refl
      (.begins (e := e "x") List.not_mem_nil)) (.registers (k := 0) rfl .request))
      (.begins (e := e "y") (by decide))) (.registers (k := 1) rfl .response))
      (.writes 0 [1, 2])) (.takes (k := 0) rfl none .zero)) (.closes (k := 0) rfl),
      rfl, by decide +kernel,
      _, .tail (.tail (.tail (.tail (.tail (.tail .refl (.hands (k := 0) rfl))
      (.enters (k := 0) rfl)) (.calls (k := 0) rfl rfl)) (.calls (k := 0) rfl rfl))
      (.returns (k := 0) rfl rfl)) (.writes 1 [3, 4, 5, 6, 7]),
      _, _, _, _, .head _, rfl, .tail _ (.tail _ (.head _))⟩
  obtain ⟨σ₁, hbefore, hk, hheld, σ₂, hafter, r, disk, finalizer, disposition, hhanded, hid,
    hend⟩ := hruns
  have hempty (d : Direction) (id : ExchangeId) : site.journal.store.repository.buffer? d id
      = none := by
    show (site.journal.store.repository.buffers.of d)[id.text]? = none
    rw [PerDirection.of_both, Std.ExtTreeMap.getElem?_empty]
  have hapart : site.journal.delegate.Apart := by
    intro place hlog
    simp [Delegate.LogsTo, Sink.place?, Sink.events, site] at hlog
  -- what the sink was told is what was held when the taps were closed
  obtain ⟨-, htold, -, hgone⟩ := run_frozen ⟨default, none⟩ hempty hapart rfl
    (fun _ hq => by cases hq) hbefore hk hafter
  refine ⟨σ₁, σ₂, hbefore, hafter, hk, hheld, r, disk, hhanded, ?_,
    hgone finalizer disposition hend⟩
  rw [htold 0 r disk hhanded hid .request, hheld]
  rfl

end Wiretap.Scene
