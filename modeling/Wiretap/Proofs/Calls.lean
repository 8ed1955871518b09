/-
  Wiretap.Proofs.Calls
  ────────────────────
  **CALLS ON THE STORE.**

  A call is a write or one of the three ways to let go of an exchange.  It changes entries
  of its exchange and files named after it, and nothing else (`perform_changesOnly`).  A
  store is sound when each of its entries keeps some bytes; whatever the disk answers, a
  call leaves a sound store sound (`perform_sound`).
-/
import Wiretap.Proofs.Store

namespace Wiretap.Store

variable {s s' : Store} {d d' : Direction} {id id' : ExchangeId} {bytes : Bytes}
variable {keys : Direction → ExchangeId → Prop} {files : Place → Prop}

/-! ## §1. Sound stores. -/

/-- Every entry of the table keeps some bytes. -/
def Sound (s : Store) : Prop := ∀ d id, ∃ bytes, s.Keeps d id bytes

theorem Sound.withMetrics (h : s.Sound) (metrics : Metrics) : Sound { s with metrics } :=
  fun d id => (h d id).imp fun _ hk => hk.withMetrics metrics

/-- The spills among some files are those of some keys. -/
def SpillsOf (keys : Direction → ExchangeId → Prop) (files : Place → Prop) : Prop :=
  ∀ d id p, EndsIn (Repository.spillName d id) p → files p → keys d id

theorem Keeps.away (h : s.Keeps d id bytes) (hspills : SpillsOf keys files)
    (hc : ChangesOnly keys files s s') (hkey : ¬ keys d id) : s'.Keeps d id bytes :=
  h.frame hc hkey fun p hp hf => hkey (hspills d id p hp hf)

/-- A change keeps a store sound when it does so with the keys it touches. -/
theorem Sound.change (h : s.Sound) (hspills : SpillsOf keys files)
    (hc : ChangesOnly keys files s s')
    (hkeys : ∀ d id, keys d id → ∃ bytes, s'.Keeps d id bytes) : s'.Sound := by
  intro d id
  -- a key that is not touched keeps what it kept, and so does its spill
  by_cases hkey : keys d id
  · exact hkeys d id hkey
  · obtain ⟨bytes, hk⟩ := h d id
    exact ⟨bytes, hk.away hspills hc hkey⟩

/-- A store without buffers is sound. -/
theorem sound_of_empty (h : ∀ d id, s.repository.buffer? d id = none) : s.Sound :=
  fun d id => ⟨[], keeps_nil (h d id)⟩

theorem spillsOf_spill (d : Direction) (id : ExchangeId) :
    SpillsOf (Key d id) (EndsIn (Repository.spillName d id)) := by
  intro d' id' p hp hf
  exact Repository.spillName_inj (hp.unique hf)

theorem spillsOf_emergency (d : Direction) (id : ExchangeId) :
    SpillsOf keys (EndsIn (Repository.emergencyName d id)) := by
  intro d' id' p hp hf
  exact absurd (hp.unique hf) (Repository.spillName_ne_emergencyName d' d id' id)

theorem spillsOf_artifact (target : Path) (d : Direction) :
    SpillsOf keys (ArtifactPlace target d) := by
  intro d' id' p hp hf
  exact absurd ((endsIn_of_artifactPlace hf).unique hp)
    (Repository.artifactName_ne_spillName d d' id')

theorem SpillsOf.or {files' : Place → Prop} (h : SpillsOf keys files) (h' : SpillsOf keys files') :
    SpillsOf keys fun p => files p ∨ files' p := by
  intro d id p hp hf
  rcases hf with hf | hf
  · exact h d id p hp hf
  · exact h' d id p hp hf

/-! ## §2. One direction at a time. -/

theorem write_sound (h : s.Sound) (d : Direction) (id : ExchangeId) (chunk : Bytes) :
    (s.write d id chunk).2.Sound := by
  obtain ⟨bytes, hk⟩ := h d id
  refine h.change (spillsOf_spill d id) (write_changesOnly hk chunk) ?_
  rintro d' id' ⟨rfl, rfl⟩
  by_cases he : s.repository.enabled = true
  · obtain ⟨landed, -, hkeeps, -⟩ := write_keeps he hk chunk
    exact ⟨_, hkeeps⟩
  · have hoff : s.write d' id' chunk = (.ok (), s) := by
      simp [write, he]
    rw [hoff]
    exact ⟨bytes, hk⟩

/-- Letting go of a key keeps a store sound. -/
theorem Sound.release (h : s.Sound) (hspills : SpillsOf (Key d id) files)
    (hc : ChangesOnly (Key d id) files s s') (hnone : s'.repository.buffer? d id = none) :
    s'.Sound := by
  refine h.change hspills hc ?_
  rintro d' id' ⟨rfl, rfl⟩
  exact ⟨[], keeps_nil hnone⟩

theorem cleanupDirection_sound (h : s.Sound) (id : ExchangeId) (d : Direction) :
    (s.cleanupDirection id d).Sound := by
  obtain ⟨bytes, hk⟩ := h d id
  exact h.release (spillsOf_spill d id) (cleanupDirection_changesOnly hk)
    (cleanupDirection_released s id d)

theorem persistDirection_sound (h : s.Sound) (id : ExchangeId) (d : Direction) :
    (s.persistDirection id d).Sound := by
  obtain ⟨bytes, hk⟩ := h d id
  exact h.release (spillsOf_emergency d id) (persistDirection_changesOnly hk)
    (persistDirection_released s id d)

theorem spillsOf_archive (id : ExchangeId) (target : Path) (d : Direction) :
    SpillsOf (Key d id) (ArchiveFile id target d) :=
  (spillsOf_artifact target d).or (spillsOf_spill d id)

/-- An archive attempt leaves the buffer it was to move as it was, or it is gone. -/
theorem archiveDirection_kept_or_released (h : s.Keeps d id bytes) (target : Path)
    (preamble : Bytes) :
    (s.archiveDirection id target preamble d).2.Keeps d id bytes
      ∨ (s.archiveDirection id target preamble d).2.repository.buffer? d id = none := by
  -- until the artifact is complete, nothing but the artifact changes
  have hart : Disk.ChangesOnly (ArtifactPlace target d) s.disk
      (writeArtifact s.disk (target.join (artifactName d)) preamble
        (s.repository.buffer? d id)).2 :=
    (writeArtifact_changesOnly s.disk (endsInSlash_artifact target d) preamble
      (s.repository.buffer? d id)).mono fun p hp => ⟨s.disk, hp⟩
  have hrel := (s.repository.buffer?_release d d id id).trans (if_pos ⟨rfl, rfl⟩)
  unfold archiveDirection
  dsimp only
  split
  next => exact Or.inl h
  next =>
    split
    next failure disk hw =>
      rw [hw] at hart
      have hc : ChangesOnly (fun _ _ => False) (ArtifactPlace target d) s { s with disk } :=
        .of_disk hart rfl
      exact Or.inl (h.away (spillsOf_artifact target d) hc not_false)
    next disk hw =>
      split
      next => split <;> exact Or.inr hrel
      next => exact Or.inr hrel

theorem archiveDirection_sound (h : s.Sound) (id : ExchangeId) (target : Path)
    (preamble : Bytes) (d : Direction) : (s.archiveDirection id target preamble d).2.Sound := by
  obtain ⟨bytes, hk⟩ := h d id
  refine h.change (spillsOf_archive id target d)
    (archiveDirection_changesOnly hk target preamble) ?_
  rintro d' id' ⟨rfl, rfl⟩
  rcases archiveDirection_kept_or_released hk target preamble with hkeeps | hnone
  · exact ⟨bytes, hkeeps⟩
  · exact ⟨[], keeps_nil hnone⟩

/-! ## §3. Both directions. -/

/-- The keys of an exchange. -/
def KeysOf (id : ExchangeId) (_ : Direction) (id' : ExchangeId) : Prop := id' = id

/-- Two steps, one for each direction of an exchange. -/
theorem ChangesOnly.both {s₁ s₂ : Store} {filesOf : Direction → Place → Prop}
    (h₁ : ChangesOnly (Key .request id) (filesOf .request) s s₁)
    (h₂ : ChangesOnly (Key .response id) (filesOf .response) s₁ s₂) :
    ChangesOnly (KeysOf id) (fun p => ∃ d, filesOf d p) s s₂ :=
  (h₁.mono (fun _ _ hk => hk.2) fun _ hp => ⟨_, hp⟩).trans
    (h₂.mono (fun _ _ hk => hk.2) fun _ hp => ⟨_, hp⟩)

theorem cleanup_changesOnly (h : s.Sound) (id : ExchangeId) :
    ChangesOnly (KeysOf id) (fun p => ∃ d, EndsIn (Repository.spillName d id) p) s
      (s.cleanup id) := by
  obtain ⟨_, hreq⟩ := h .request id
  obtain ⟨_, hres⟩ := cleanupDirection_sound h id .request .response id
  exact .both (cleanupDirection_changesOnly hreq) (cleanupDirection_changesOnly hres)

theorem persist_changesOnly (h : s.Sound) (id : ExchangeId) :
    ChangesOnly (KeysOf id) (fun p => ∃ d, EndsIn (Repository.emergencyName d id) p) s
      (s.persist id) := by
  obtain ⟨_, hreq⟩ := h .request id
  obtain ⟨_, hres⟩ := persistDirection_sound h id .request .response id
  exact .both (persistDirection_changesOnly hreq) (persistDirection_changesOnly hres)

/-- What each direction of an archive attempt preserves, the attempt does, wherever it ends. -/
theorem archiveInto_preserves {P : Store → Prop} {target : Path} {preamble : Direction → Bytes}
    (h : s.Sound) (hp : P s)
    (hdirection : ∀ s d, s.Sound → P s → P (s.archiveDirection id target (preamble d) d).2) :
    P (s.archiveInto id target preamble).2 := by
  have hsound := archiveDirection_sound h id target (preamble .request) .request
  have hfirst := hdirection s .request h hp
  have hsecond := hdirection _ .response hsound hfirst
  -- where the first direction fails, the second is not tried
  unfold archiveInto
  split
  next hw => rwa [hw] at hfirst
  next hw =>
    rw [hw] at hsecond
    split
    next hw₂ => rwa [hw₂] at hsecond
    next hw₂ => rwa [hw₂] at hsecond

theorem archiveInto_changesOnly (h : s.Sound) (id : ExchangeId) (target : Path)
    (preamble : Direction → Bytes) :
    ChangesOnly (KeysOf id) (fun p => ∃ d, ArchiveFile id target d p) s
      (s.archiveInto id target preamble).2 := by
  refine archiveInto_preserves h (.refl s) fun s' d hsound hc => ?_
  obtain ⟨_, hk⟩ := hsound d id
  exact hc.trans ((archiveDirection_changesOnly hk target (preamble d)).mono
    (fun _ _ hkey => hkey.2) fun _ hp => ⟨d, hp⟩)

/-- Letting go of one direction leaves that of another alone. -/
theorem released_of_changesOnly (hc : ChangesOnly (Key d id) files s s')
    (hnone : s'.repository.buffer? d id = none)
    (hother : d' ≠ d → s.repository.buffer? d' id = none) :
    s'.repository.buffer? d' id = none := by
  by_cases hd : d' = d
  · rw [hd]
    exact hnone
  · rw [hc.buffer? d' id fun hk => hd hk.1]
    exact hother hd

theorem cleanup_released (h : s.Sound) (id : ExchangeId) (d : Direction) :
    (s.cleanup id).repository.buffer? d id = none := by
  obtain ⟨_, hres⟩ := cleanupDirection_sound h id .request .response id
  -- the second direction leaves the first as it is, and that one was let go of before
  refine released_of_changesOnly (cleanupDirection_changesOnly hres)
    (cleanupDirection_released _ id .response) fun hd => ?_
  cases d with
  | request => exact cleanupDirection_released s id .request
  | response => exact absurd rfl hd

/-- Archiving a whole exchange leaves no buffer of it. -/
theorem archiveInto_released (h : s.Sound) {target : Path} {preamble : Direction → Bytes}
    {artifacts : List Path} (hok : (s.archiveInto id target preamble).1 = .ok artifacts)
    (d : Direction) : (s.archiveInto id target preamble).2.repository.buffer? d id = none := by
  obtain ⟨_, hres⟩ := archiveDirection_sound h id target (preamble .request) .request .response id
  have hchange := archiveDirection_changesOnly hres target (preamble .response)
  unfold archiveInto at hok ⊢
  split
  next hw =>
    rw [hw] at hok
    cases hok
  next s₁ hw =>
    have hfirst := archiveDirection_released (congrArg Prod.fst hw)
    rw [hw] at hok hfirst hchange
    dsimp only at hok hchange
    split
    next hw₂ =>
      rw [hw₂] at hok
      cases hok
    next hw₂ =>
      have hsecond := archiveDirection_released (congrArg Prod.fst hw₂)
      rw [hw₂] at hsecond hchange
      refine released_of_changesOnly hchange hsecond fun hd => ?_
      cases d with
      | request => exact hfirst
      | response => exact absurd rfl hd

/-- Archiving an exchange can only fail for its files. -/
theorem archiveInto_error {target : Path} {preamble : Direction → Bytes}
    {failure : CaptureFailure} (h : (s.archiveInto id target preamble).1 = .error failure) :
    failure.OfFile := by
  unfold archiveInto at h
  split at h
  next hw =>
    cases h
    exact archiveDirection_error (congrArg Prod.fst hw)
  next =>
    split at h
    next hw =>
      cases h
      exact archiveDirection_error (congrArg Prod.fst hw)
    next => cases h

theorem persist_released (h : s.Sound) (id : ExchangeId) (d : Direction) :
    (s.persist id).repository.buffer? d id = none := by
  obtain ⟨_, hres⟩ := persistDirection_sound h id .request .response id
  refine released_of_changesOnly (persistDirection_changesOnly hres)
    (persistDirection_released _ id .response) fun hd => ?_
  cases d with
  | request => exact persistDirection_released s id .request
  | response => exact absurd rfl hd

theorem cleanup_sound (h : s.Sound) (id : ExchangeId) : (s.cleanup id).Sound :=
  cleanupDirection_sound (cleanupDirection_sound h id .request) id .response

theorem persist_sound (h : s.Sound) (id : ExchangeId) : (s.persist id).Sound :=
  persistDirection_sound (persistDirection_sound h id .request) id .response

theorem archiveInto_sound (h : s.Sound) (id : ExchangeId) (target : Path)
    (preamble : Direction → Bytes) : (s.archiveInto id target preamble).2.Sound :=
  archiveInto_preserves h h fun _ d hsound _ =>
    archiveDirection_sound hsound id target (preamble d) d

/-! ## §4. Calls. -/

/-- A call on the store. -/
inductive Call
  | write (d : Direction) (id : ExchangeId) (chunk : Bytes)
  | cleanup (id : ExchangeId)
  | persist (id : ExchangeId)
  | archiveInto (id : ExchangeId) (target : Path) (preamble : Direction → Bytes)

namespace Call

/-- The keys that a call is about. -/
def Touches : Call → Direction → ExchangeId → Prop
  | .write d id _ => Key d id
  | .cleanup id => KeysOf id
  | .persist id => KeysOf id
  | .archiveInto id _ _ => KeysOf id

/-- The files that a call works on. -/
def TouchesFile : Call → Place → Prop
  | .write d id _ => EndsIn (Repository.spillName d id)
  | .cleanup id => fun p => ∃ d, EndsIn (Repository.spillName d id) p
  | .persist id => fun p => ∃ d, EndsIn (Repository.emergencyName d id) p
  | .archiveInto id target _ => fun p => ∃ d, ArchiveFile id target d p

theorem spillsOf (call : Call) : SpillsOf call.Touches call.TouchesFile := by
  intro d id p hp hf
  cases call with
  | write d' id' chunk => exact spillsOf_spill d' id' d id p hp hf
  | cleanup id' =>
      obtain ⟨d', hf⟩ := hf
      exact (spillsOf_spill d' id' d id p hp hf).2
  | persist id' =>
      obtain ⟨d', hf⟩ := hf
      exact spillsOf_emergency d' id' d id p hp hf
  | archiveInto id' target preamble =>
      obtain ⟨d', hf⟩ := hf
      exact (spillsOf_archive id' target d' d id p hp hf).2

end Call

/-- Makes a call; a cleanup and a rescue report no failure. -/
def perform (s : Store) : Call → Except CaptureFailure Unit × Store
  | .write d id chunk => s.write d id chunk
  | .cleanup id => (.ok (), s.cleanup id)
  | .persist id => (.ok (), s.persist id)
  | .archiveInto id target preamble =>
    ((s.archiveInto id target preamble).1.map fun _ => (), (s.archiveInto id target preamble).2)

/-- Makes calls, one after the other. -/
def performAll (s : Store) : List Call → List (Except CaptureFailure Unit) × Store
  | [] => ([], s)
  | call :: rest =>
    ((s.perform call).1 :: ((s.perform call).2.performAll rest).1,
      ((s.perform call).2.performAll rest).2)

/-- A call changes the entries it is about and the files it works on. -/
theorem perform_changesOnly (h : s.Sound) (call : Call) :
    ChangesOnly call.Touches call.TouchesFile s (s.perform call).2 := by
  cases call with
  | write d id chunk =>
      obtain ⟨bytes, hk⟩ := h d id
      exact write_changesOnly hk chunk
  | cleanup id => exact cleanup_changesOnly h id
  | persist id => exact persist_changesOnly h id
  | archiveInto id target preamble => exact archiveInto_changesOnly h id target preamble

/-- Whatever the disk answers, a call leaves a sound store sound. -/
theorem perform_sound (h : s.Sound) (call : Call) : (s.perform call).2.Sound := by
  cases call with
  | write d id chunk => exact write_sound h d id chunk
  | cleanup id => exact cleanup_sound h id
  | persist id => exact persist_sound h id
  | archiveInto id target preamble => exact archiveInto_sound h id target preamble

end Wiretap.Store
