/-
  Wiretap.Proofs.Preserved
  ────────────────────────
  **WHAT WAS SAVED STAYS SAVED.**

  When an exchange is saved its buffers are let go of, and their bytes stay behind in its
  emergency files and in its spills.  No later call comes near these files: a call on another
  exchange has files of other names, and one on the same exchange finds no buffer any more.
  Only a write could make a new one:

    • `perform_of_released`   — one call on a store without buffers of the exchange,
    • `performAll_saved`      — any number of them, from the store that was saved,
    • `persist_stays_saved`   — where the bytes are, right away and for good.
-/
import Wiretap.Proofs.Confinement
import Wiretap.Proofs.Retrying

namespace Wiretap.Store

variable {s : Store} {r : Repository} {d : Direction} {id : ExchangeId} {bytes : Bytes}

/-! ## §1. The files that are left behind. -/

/-- The files in which a saved exchange leaves its bytes. -/
def LeftBehind (id : ExchangeId) (place : Place) : Prop :=
  ∃ d, EndsIn (Repository.spillName d id) place ∨ EndsIn (Repository.emergencyName d id) place

/-- An artifact is no such file. -/
theorem not_leftBehind_of_artifact {place : Place} (h : EndsIn (artifactName d) place) :
    ¬ LeftBehind id place := by
  rintro ⟨d', hspill | hemergency⟩
  · exact Repository.artifactName_ne_spillName d d' id (h.unique hspill)
  · exact Repository.artifactName_ne_emergencyName d d' id (h.unique hemergency)

/-- The spills and the emergency files of an exchange are its own. -/
theorem LeftBehind.unique {id' : ExchangeId} {place : Place} (h : LeftBehind id place)
    (h' : LeftBehind id' place) : id = id' := by
  obtain ⟨d, h⟩ := h
  obtain ⟨d', h'⟩ := h'
  exact FileOf.unique ⟨d, h.imp_right Or.inl⟩ ⟨d', h'.imp_right Or.inl⟩

/-- A call on another exchange works on none of them. -/
theorem Call.not_leftBehind {call : Call} {place : Place} (hcall : ∀ d, ¬ call.Touches d id)
    (hplace : call.TouchesFile place) : ¬ LeftBehind id place := by
  intro hleft
  cases call with
  | write d id' chunk =>
      obtain rfl := hleft.unique ⟨d, Or.inl hplace⟩
      exact hcall d ⟨rfl, rfl⟩
  | cleanup id' =>
      obtain ⟨d, hspill⟩ := hplace
      exact hcall d (hleft.unique ⟨d, Or.inl hspill⟩)
  | persist id' =>
      obtain ⟨d, hemergency⟩ := hplace
      exact hcall d (hleft.unique ⟨d, Or.inr hemergency⟩)
  | archiveInto id' target preamble =>
      obtain ⟨d, hartifact | hspill⟩ := hplace
      · exact not_leftBehind_of_artifact (endsIn_of_artifactPlace hartifact) hleft
      · exact hcall d (hleft.unique ⟨d, Or.inl hspill⟩)

theorem Saved.of_leftBehind {disk disk' : Disk} (h : Saved disk r d id bytes)
    (hsafe : r.buffer? d id ≠ none → id.isPathSafe = true)
    (hc : Disk.ChangesOnly (fun p => ¬ LeftBehind id p) disk disk') :
    Saved disk' r d id bytes :=
  h.frame hsafe hc (fun _ hp hleft => hleft ⟨d, Or.inl hp⟩) fun _ hp hleft => hleft ⟨d, Or.inr hp⟩

/-! ## §2. Calls on an exchange without buffers. -/

/-- Whether a call is a write to an exchange. -/
def Call.WritesTo (id : ExchangeId) : Call → Prop
  | .write _ id' _ => id' = id
  | _ => False

/-- From one store to the next, an exchange goes on to have no buffers, and the files that it
left behind are as they were. -/
structure Rests (id : ExchangeId) (s s' : Store) : Prop where
  released : ∀ d, s'.repository.buffer? d id = none
  disk : Disk.ChangesOnly (fun p => ¬ LeftBehind id p) s.disk s'.disk

theorem Rests.refl (hnone : ∀ d, s.repository.buffer? d id = none) : Rests id s s :=
  ⟨hnone, .refl _⟩

theorem Rests.trans {s' s'' : Store} (h : Rests id s s') (h' : Rests id s' s'') :
    Rests id s s'' :=
  ⟨h'.released, h.disk.trans h'.disk⟩

/-- An artifact of an exchange without buffers holds its preamble alone, and nothing else
changes for it. -/
theorem archiveInto_rests (h : s.Sound) (hnone : ∀ d, s.repository.buffer? d id = none)
    (target : Path) (preamble : Direction → Bytes) :
    Rests id s (s.archiveInto id target preamble).2 := by
  refine archiveInto_preserves h (Rests.refl hnone) fun s' d _ hrests => hrests.trans ?_
  have hart := writeArtifact_changesOnly s'.disk (endsInSlash_artifact target d) (preamble d) none
  have hdisk : Disk.ChangesOnly (fun p => ¬ LeftBehind id p) s'.disk
      (writeArtifact s'.disk (target.join (artifactName d)) (preamble d) none).2 :=
    hart.mono fun p hp => not_leftBehind_of_artifact (endsIn_of_artifactPlace ⟨s'.disk, hp⟩)
  have hrelease : ∀ d', (s'.repository.release d id).buffer? d' id = none := by
    intro d'
    rw [Repository.buffer?_release]
    split
    next => rfl
    next => exact hrests.released d'
  unfold archiveDirection
  rw [hrests.released d]
  dsimp only
  split
  next => exact Rests.refl hrests.released
  next =>
    split
    next hw =>
      rw [hw] at hdisk
      exact ⟨hrests.released, hdisk⟩
    next hw =>
      rw [hw] at hdisk
      exact ⟨hrelease, hdisk⟩

/-- A call on another exchange comes near nothing of this one. -/
theorem perform_rests_of_other (h : s.Sound) (hnone : ∀ d, s.repository.buffer? d id = none)
    {call : Call} (hcall : ∀ d, ¬ call.Touches d id) : Rests id s (s.perform call).2 := by
  have hc := perform_changesOnly h call
  exact ⟨fun d => (hc.buffer? d id (hcall d)).trans (hnone d),
    hc.disk.mono fun p hp => call.not_leftBehind hcall hp⟩

/-- Where an exchange has no buffers, no call but a write to it makes a difference to it. -/
theorem perform_of_released (h : s.Sound) (hnone : ∀ d, s.repository.buffer? d id = none)
    {call : Call} (hwrite : ¬ call.WritesTo id) : Rests id s (s.perform call).2 := by
  by_cases hcall : ∀ d, ¬ call.Touches d id
  · exact perform_rests_of_other h hnone hcall
  · -- the call is on this exchange, and finds nothing to let go of
    obtain ⟨d, htouches⟩ := not_forall_not.mp hcall
    cases call with
    | write d' id' chunk => exact absurd htouches.2.symm hwrite
    | cleanup id' =>
        obtain rfl : id = id' := htouches
        show Rests id s (s.cleanup id)
        rw [cleanup_of_none hnone]
        exact .refl hnone
    | persist id' =>
        obtain rfl : id = id' := htouches
        show Rests id s (s.persist id)
        rw [persist_of_none hnone]
        exact .refl hnone
    | archiveInto id' target preamble =>
        obtain rfl : id = id' := htouches
        exact archiveInto_rests h hnone target preamble

/-- Nor do any number of calls. -/
theorem performAll_of_released (h : s.Sound) (hnone : ∀ d, s.repository.buffer? d id = none)
    (calls : List Call) (hwrite : ∀ call ∈ calls, ¬ call.WritesTo id) :
    Rests id s (s.performAll calls).2 := by
  induction calls generalizing s with
  | nil => exact .refl hnone
  | cons call rest ih =>
      have hfirst := perform_of_released h hnone (hwrite call List.mem_cons_self)
      exact hfirst.trans (ih (perform_sound h call) hfirst.released
        fun c hc => hwrite c (List.mem_cons_of_mem call hc))

/-! ## §3. What was saved. -/

/-- **What was saved stays saved.**  When an exchange is saved, the bytes that a direction had
captured are in its emergency file, if they were in memory and this file could be written, or
in its spill.  Whatever calls follow and whatever the disk answers to them, unless the exchange
is written to, the same file holds the same bytes. -/
theorem persist_stays_saved (h : s.Reachable) (hb : (s.repository.buffer? d id).isSome = true)
    (hsave : (s.beforeSaving id d).SaveSucceeds d id) (calls : List Call)
    (hwrite : ∀ call ∈ calls, ¬ call.WritesTo id) :
    ∃ bytes, s.held d id = some bytes ∧ Saved (s.persist id).disk s.repository d id bytes
      ∧ Saved ((s.persist id).performAll calls).2.disk s.repository d id bytes := by
  have hsound := h.sound
  obtain ⟨bytes, hk⟩ := hsound d id
  have hne := hk.isSome_iff.mp hb
  have hsaved := persist_saved_of_written hsound hk hsave
  have hrests := performAll_of_released (persist_sound hsound id) (persist_released hsound id)
    calls hwrite
  exact ⟨bytes, hk.held.trans (if_neg hne), hsaved,
    hsaved.of_leftBehind (fun _ => hk.safe hne) hrests.disk⟩

/-- The same of a body in a spill and one in memory, before calls on their exchange and on one
whose name goes on from theirs; the first of them is refused by the disk. -/
theorem persist_stays_saved_of_refused :
    let s : Store := { twoBodies with disk := { twoBodies.disk with
      responses := [.comply, .comply, .refuse .storageFull] } }
    let later : List Call := [.archiveInto ⟨"x"⟩ (.ofText "/a") fun _ => [0], .cleanup ⟨"x"⟩,
      .write .request ⟨"x_request"⟩ [9, 9, 9], .persist ⟨"x_request"⟩]
    s.held .request ⟨"x"⟩ = some [1, 2, 3] ∧ s.held .response ⟨"x"⟩ = some [7]
      ∧ ∀ d, ∃ bytes, s.held d ⟨"x"⟩ = some bytes
        ∧ Saved (s.persist ⟨"x"⟩).disk s.repository d ⟨"x"⟩ bytes
        ∧ Saved ((s.persist ⟨"x"⟩).performAll later).2.disk s.repository d ⟨"x"⟩ bytes := by
  intro s later
  have hdisk : Disk.ChangesOnly (fun _ => False) twoBodies.disk s.disk := .of_entries rfl rfl
  have hs : s.Reachable := twoBodies_reachable.beside (fun _ _ _ _ hf => hf) hdisk rfl
  have hwrite : ∀ call ∈ later, ¬ call.WritesTo ⟨"x"⟩ := by
    simp [later, Call.WritesTo]
  refine ⟨by decide +kernel, by decide +kernel, fun d => ?_⟩
  cases d with
  | request =>
      refine persist_stays_saved hs (by decide +kernel) (fun bytes hmem => ?_) later hwrite
      -- the request is in a spill, and no file is to be written for it
      have hmode : (s.repository.buffer? .request ⟨"x"⟩).map Buffer.mode = some .onDisk := by
        decide +kernel
      rw [show s.repository.buffer? .request ⟨"x"⟩ = some (.inMemory bytes) from hmem] at hmode
      cases hmode
  | response =>
      refine persist_stays_saved hs (by decide +kernel) (fun bytes hmem => ?_) later hwrite
      have hb : (s.beforeSaving ⟨"x"⟩ .response).repository.buffer? .response ⟨"x"⟩
          = some (.inMemory [7]) := by decide +kernel
      obtain rfl : bytes = [7] := by simpa [hb] using hmem.symm
      decide +kernel

end Wiretap.Store
