/-
  Wiretap.Proofs.Retrying
  ───────────────────────
  **ARCHIVE ATTEMPTS THAT FAIL AND ARE MADE AGAIN.**

  An archive attempt may fail at any of its requests, in either direction, and leave a
  half-written artifact behind.  A direction with captured bytes is in one of two stages: its
  buffer is what it was and still keeps its bytes, or the buffer is gone and the artifact is
  whole.  An attempt can lead from the first stage to the second, and never back, since an
  artifact whose buffer is gone is not opened again:

    • `archiveDirection_stage`      — one direction of one attempt,
    • `Attempts.stage`              — any number of attempts,
    • `archive_attempts_keep_bytes` — what can be relied on after each of them.
-/
import Wiretap.Proofs.Ledger
import Wiretap.Proofs.Settling

namespace Wiretap.Store

variable {s s' s'' : Store} {d d' : Direction} {id : ExchangeId} {bytes content : Bytes}
variable {target : Path} {preamble : Direction → Bytes} {place : Place} {stamp : Nat}
variable {keys : Direction → ExchangeId → Prop} {files : Place → Prop}

/-! ## §1. Attempts. -/

/-- Attempts to archive an exchange, from one store to a later one.  Between them other
exchanges may be worked on, the disk may change its mind about what it answers, and files may
come and go that are neither spills nor the artifacts. -/
inductive Attempts (id : ExchangeId) (target : Path) (preamble : Direction → Bytes) (s : Store) :
    Store → Prop
  | none : Attempts id target preamble s s
  | again {s' : Store} (h : Attempts id target preamble s s') :
      Attempts id target preamble s (s'.archiveInto id target preamble).2
  | call {s' : Store} (h : Attempts id target preamble s s') (call : Call)
      (hkey : ∀ d, ¬ call.Touches d id)
      (hart : ∀ d p, ArtifactPlace target d p → ¬ call.TouchesFile p) :
      Attempts id target preamble s (s'.perform call).2
  | beside {s' s'' : Store} {files : Place → Prop} (h : Attempts id target preamble s s')
      (hspills : SpillsOf (fun _ _ => False) files)
      (hart : ∀ d p, ArtifactPlace target d p → ¬ files p)
      (hdisk : Disk.ChangesOnly files s'.disk s''.disk) (hr : s''.repository = s'.repository) :
      Attempts id target preamble s s''

theorem Attempts.reachable (h : s.Reachable) (hrun : Attempts id target preamble s s') :
    s'.Reachable := by
  induction hrun with
  | none => exact h
  | again _ ih => exact ih.call (.archiveInto id target preamble)
  | call _ call _ _ ih => exact ih.call call
  | beside _ hspills _ hdisk hr ih => exact ih.beside hspills hdisk hr

/-! ## §2. Stages. -/

/-- A direction waits: its buffer is the one of an earlier store and keeps some bytes. -/
structure Waiting (s s' : Store) (d : Direction) (id : ExchangeId) (bytes : Bytes) : Prop where
  buffer? : s'.repository.buffer? d id = s.repository.buffer? d id
  keeps : s'.Keeps d id bytes

/-- A direction is done: it has no buffer, and its artifact is this file. -/
structure Done (s : Store) (target : Path) (d : Direction) (id : ExchangeId) (place : Place)
    (stamp : Nat) (content : Bytes) : Prop where
  released : s.repository.buffer? d id = none
  artifact : s.disk.find (target.join (artifactName d)) = .ok (place, .file stamp content)

/-- The stage of a direction: it waits, or it is done and its artifact has this content. -/
def Stage (s s' : Store) (target : Path) (d : Direction) (id : ExchangeId)
    (bytes content : Bytes) : Prop :=
  Waiting s s' d id bytes ∨ ∃ place stamp, Done s' target d id place stamp content

theorem Done.archived (h : Done s target d id place stamp content) :
    Archived s.disk target d content :=
  Disk.read_eq_ok.mpr ⟨place, stamp, h.artifact⟩

/-- A direction that is done stays so through changes to other keys and other files. -/
theorem Done.frame (h : Done s target d id place stamp content) (hc : ChangesOnly keys files s s')
    (hkey : ¬ keys d id) (hart : ∀ p, ArtifactPlace target d p → ¬ files p) :
    Done s' target d id place stamp content := by
  obtain ⟨hloc, -, -⟩ := Disk.find_eq_file.mp h.artifact
  exact ⟨(hc.buffer? d id hkey).trans h.released,
    Disk.find_of_changesOnly hc.disk h.artifact (hart place ⟨s.disk, hloc⟩)⟩

theorem Waiting.frame (h : Waiting s s' d id bytes) (hspills : SpillsOf keys files)
    (hc : ChangesOnly keys files s' s'') (hkey : ¬ keys d id) : Waiting s s'' d id bytes :=
  ⟨(hc.buffer? d id hkey).trans h.buffer?, h.keeps.away hspills hc hkey⟩

theorem Stage.frame (h : Stage s s' target d id bytes content) (hspills : SpillsOf keys files)
    (hc : ChangesOnly keys files s' s'') (hkey : ¬ keys d id)
    (hart : ∀ p, ArtifactPlace target d p → ¬ files p) :
    Stage s s'' target d id bytes content := by
  rcases h with hwait | ⟨place, stamp, hdone⟩
  · exact Or.inl (hwait.frame hspills hc hkey)
  · exact Or.inr ⟨place, stamp, hdone.frame hc hkey hart⟩

/-- In either stage the entry of the direction keeps some bytes. -/
theorem Stage.keeps (h : Stage s s' target d id bytes content) :
    ∃ kept, s'.Keeps d id kept := by
  rcases h with hwait | ⟨place, stamp, hdone⟩
  · exact ⟨bytes, hwait.keeps⟩
  · exact ⟨[], keeps_nil hdone.released⟩

/-! ## §3. One attempt. -/

/-- The artifact of a direction that is done is not opened again. -/
theorem archiveDirection_of_done (h : Done s target d id place stamp content)
    (preamble : Bytes) : (s.archiveDirection id target preamble d).2 = s := by
  have hexists : s.disk.exists? (target.join (artifactName d)) = true := by
    unfold Disk.exists?
    rw [h.artifact]
    rfl
  simp [archiveDirection, h.released, hexists]

/-- An attempt finds a direction without a buffer and leaves it without one. -/
theorem archiveDirection_buffer?_of_none (hb : s.repository.buffer? d id = none) (target : Path)
    (preamble : Bytes) :
    (s.archiveDirection id target preamble d).2.repository.buffer? d id = none := by
  unfold archiveDirection
  rw [hb]
  dsimp only
  split
  next => exact hb
  next =>
    split
    next => exact hb
    next => exact (Repository.buffer?_release _ _ _ _ _).trans (if_pos ⟨rfl, rfl⟩)

/-- One direction of an attempt: it goes on waiting, or it is done. -/
theorem archiveDirection_stage (h : s.Keeps d id bytes) (target : Path) (preamble : Bytes) :
    Stage s (s.archiveDirection id target preamble d).2 target d id bytes (preamble ++ bytes) := by
  cases hb : s.repository.buffer? d id with
  | none =>
      -- there are no bytes to move, whatever is made of the artifact
      have hnone := archiveDirection_buffer?_of_none hb target preamble
      have hkept := h.kept
      rw [hb] at hkept
      obtain rfl : bytes = [] := hkept
      exact Or.inl ⟨hnone.trans hb.symm, keeps_nil hnone⟩
  | some buffer =>
      have hart := writeArtifact_changesOnly s.disk (endsInSlash_artifact target d) preamble
        (some buffer)
      unfold archiveDirection
      simp only [hb, Option.isNone_some, Bool.false_and, Bool.false_eq_true, if_false]
      split
      next failure disk hw =>
        -- the artifact is not whole, and it is all that changed
        rw [hw] at hart
        have hc : ChangesOnly (fun _ _ => False) (ArtifactPlace target d) s { s with disk } :=
          .of_disk (hart.mono fun p hp => ⟨s.disk, hp⟩) rfl
        exact Or.inl ⟨rfl, h.away (spillsOf_artifact target d) hc not_false⟩
      next disk hw =>
        -- the artifact is whole from here on, even where the spill cannot be removed
        obtain ⟨place, stamp, hfind⟩ := Disk.read_eq_ok.mp (writeArtifact_archived h hb hw)
        have hrel := (s.repository.buffer?_release d d id id).trans (if_pos ⟨rfl, rfl⟩)
        refine Or.inr ⟨place, stamp, ?_⟩
        cases buffer with
        | inMemory held => exact ⟨hrel, hfind⟩
        | onDisk spill =>
            have hremove := disk.removeFile_changesOnly spill.path
            have hstays : (disk.removeFile spill.path).2.find (target.join (artifactName d))
                = .ok (place, .file stamp (preamble ++ bytes)) := by
              refine Disk.find_of_changesOnly hremove hfind fun hspill => ?_
              obtain ⟨hloc, -, -⟩ := Disk.find_eq_file.mp hfind
              exact not_endsIn_of_artifact hloc d id (h.endsIn_spill hb hspill)
            dsimp only
            split
            next hgone =>
              rw [hgone] at hstays
              exact ⟨hrel, hstays⟩
            next hgone =>
              rw [hgone] at hstays
              exact ⟨hrel, hstays⟩

/-- Whatever direction is attempted, one that is done stays as it is. -/
theorem archiveDirection_done (h : s.Sound) (hdone : Done s target d id place stamp content)
    (d' : Direction) (preamble : Bytes) :
    Done (s.archiveDirection id target preamble d').2 target d id place stamp content := by
  by_cases hd : d = d'
  · subst hd
    rwa [archiveDirection_of_done hdone]
  · obtain ⟨_, hk⟩ := h d' id
    exact hdone.frame (archiveDirection_changesOnly hk target preamble) (fun hkey => hd hkey.1)
      fun p hp => not_archiveFile_of_endsIn hd (endsIn_of_artifactPlace hp)

/-- Whatever direction is attempted, each one keeps its stage or goes on to the next. -/
theorem Stage.attempt (h : s'.Sound) (preamble : Direction → Bytes)
    (hstage : Stage s s' target d id bytes (preamble d ++ bytes)) (d' : Direction) :
    Stage s (s'.archiveDirection id target (preamble d') d').2 target d id bytes
      (preamble d ++ bytes) := by
  rcases hstage with hwait | ⟨place, stamp, hdone⟩
  · by_cases hd : d = d'
    · subst hd
      rcases archiveDirection_stage hwait.keeps target (preamble d) with hwait' | hdone
      · exact Or.inl ⟨hwait'.buffer?.trans hwait.buffer?, hwait'.keeps⟩
      · exact Or.inr hdone
    · obtain ⟨_, hk⟩ := h d' id
      exact Or.inl (hwait.frame (spillsOf_archive id target d')
        (archiveDirection_changesOnly hk target (preamble d')) fun hkey => hd hkey.1)
  · exact Or.inr ⟨place, stamp, archiveDirection_done h hdone d' (preamble d')⟩

/-! ## §4. Any number of attempts. -/

/-- What each direction of an attempt preserves, and every change that spares the exchange and
its artifacts, outlasts any number of attempts. -/
theorem Attempts.preserves {P : Store → Prop} (hrun : Attempts id target preamble s s')
    (h : s.Reachable) (hp : P s)
    (hdirection : ∀ s d, s.Sound → P s → P (s.archiveDirection id target (preamble d) d).2)
    (hframe : ∀ {s s' keys files}, P s → SpillsOf keys files → ChangesOnly keys files s s' →
      (∀ d, ¬ keys d id) → (∀ d p, ArtifactPlace target d p → ¬ files p) → P s') : P s' := by
  induction hrun with
  | none => exact hp
  | again hrun ih => exact archiveInto_preserves (hrun.reachable h).sound ih hdirection
  | call hrun call hkey hart ih =>
      exact hframe ih call.spillsOf (perform_changesOnly (hrun.reachable h).sound call) hkey hart
  | beside hrun hspills hart hdisk hr ih =>
      exact hframe ih hspills (.of_disk hdisk hr) (fun _ => not_false) hart

/-- After any number of attempts a direction waits or is done. -/
theorem Attempts.stage (hrun : Attempts id target preamble s s') (h : s.Reachable)
    (hk : s.Keeps d id bytes) : Stage s s' target d id bytes (preamble d ++ bytes) := by
  refine hrun.preserves h (P := fun s' => Stage s s' target d id bytes (preamble d ++ bytes))
    (Or.inl ⟨rfl, hk⟩) (fun _ d' hsound hstage => hstage.attempt hsound preamble d') ?_
  intro _ _ _ _ hstage hspills hc hkey hart
  exact hstage.frame hspills hc (hkey d) (hart d)

/-- A direction that is done is left as it is by any number of attempts. -/
theorem Attempts.done (hrun : Attempts id target preamble s s') (h : s.Reachable)
    (hdone : Done s target d id place stamp content) :
    Done s' target d id place stamp content := by
  refine hrun.preserves h (P := fun s' => Done s' target d id place stamp content) hdone
    (fun _ d' hsound hdone => archiveDirection_done hsound hdone d' (preamble d')) ?_
  intro _ _ _ _ hdone _ hc hkey hart
  exact hdone.frame hc (hkey d) (hart d)

/-! ## §5. What can be relied on. -/

/-- From the store in which bytes were captured to a later one, none of them is lost. -/
structure Survives (id : ExchangeId) (target : Path) (preamble : Direction → Bytes)
    (s s' : Store) (d : Direction) (bytes : Bytes) : Prop where
  /-- The buffer is what it was, or the artifact is complete and the buffer is gone. -/
  stage : (s'.repository.buffer? d id = s.repository.buffer? d id ∧ s'.held d id = some bytes)
    ∨ (s'.repository.buffer? d id = none ∧ Archived s'.disk target d (preamble d ++ bytes))
  /-- When the exchange is saved now, the bytes are in the artifact, in an emergency file or in
  a spill, unless the emergency file cannot be written. -/
  saved : (s'.beforeSaving id d).SaveSucceeds d id →
    Archived (s'.persist id).disk target d (preamble d ++ bytes)
      ∨ (s'.persist id).disk.read (s'.repository.emergencyPath d id) = .ok bytes
      ∨ (s'.persist id).disk.read (s'.repository.bufferPath d id) = .ok bytes
  /-- When one more attempt succeeds, the artifact is complete and the buffer is gone. -/
  archived : ∀ artifacts, (s'.archiveInto id target preamble).1 = .ok artifacts →
    (s'.archiveInto id target preamble).2.repository.buffer? d id = none
      ∧ Archived (s'.archiveInto id target preamble).2.disk target d (preamble d ++ bytes)
  /-- Once the buffer is gone, no attempt changes the artifact any more. -/
  final : s'.repository.buffer? d id = none → ∀ s'', Attempts id target preamble s' s'' →
    s''.disk.find (target.join (artifactName d)) = s'.disk.find (target.join (artifactName d))

/-- A direction is saved in either stage. -/
theorem Stage.saved (hstage : Stage s s' target d id bytes content) (h : s'.Sound)
    (hne : bytes ≠ []) (hsave : (s'.beforeSaving id d).SaveSucceeds d id) :
    Archived (s'.persist id).disk target d content
      ∨ (s'.persist id).disk.read (s'.repository.emergencyPath d id) = .ok bytes
      ∨ (s'.persist id).disk.read (s'.repository.bufferPath d id) = .ok bytes := by
  rcases hstage with hwait | ⟨place, stamp, hdone⟩
  · have hsaved := persist_saved_of_written h hwait.keeps hsave
    have hsome := hwait.keeps.isSome_iff.mpr hne
    unfold Saved at hsaved
    split at hsaved
    next hnone =>
      rw [hnone] at hsome
      cases hsome
    next => exact Or.inr (Or.inl hsaved)
    next => exact Or.inr (Or.inr hsaved)
  · -- no file saved in an emergency has the name of an artifact
    refine Or.inl (hdone.archived.frame (persist_changesOnly h id).disk ?_)
    rintro p hp ⟨d', hemergency⟩
    exact Repository.artifactName_ne_emergencyName d d' id (hp.unique hemergency)

/-- **Archiving loses no captured byte and can be tried again.**  Whatever the disk answers to
whatever number of attempts, the bytes that a direction had captured are in its buffer, which
is what it was, or behind the preamble in its artifact.  Either way they can be saved.  They are
in the artifact as soon as an attempt succeeds, and there they stay. -/
theorem archive_attempts_keep_bytes (h : s.Reachable) (hrun : Attempts id target preamble s s')
    (hheld : s.held d id = some bytes) : Survives id target preamble s s' d bytes := by
  obtain ⟨kept, hk⟩ := h.sound d id
  obtain ⟨rfl, hne⟩ := hk.eq_of_held hheld
  have h' := hrun.reachable h
  have hstage := hrun.stage h hk
  refine ⟨?_, hstage.saved h'.sound hne, ?_, ?_⟩
  · rcases hstage with hwait | ⟨place, stamp, hdone⟩
    · exact Or.inl ⟨hwait.buffer?, hwait.keeps.held.trans (if_neg hne)⟩
    · exact Or.inr ⟨hdone.released, hdone.archived⟩
  · intro artifacts hok
    have hnone := archiveInto_released h'.sound hok d
    refine ⟨hnone, ?_⟩
    rcases hrun.again.stage h hk with hwait | ⟨place, stamp, hdone⟩
    · -- where there are bytes there is a buffer, and it is gone
      have hsome := hwait.keeps.isSome_iff.mpr hne
      rw [hnone] at hsome
      cases hsome
    · exact hdone.archived
  · intro hnone s'' hlater
    rcases hstage with hwait | ⟨place, stamp, hdone⟩
    · have hsome := hwait.keeps.isSome_iff.mpr hne
      rw [hnone] at hsome
      cases hsome
    · rw [(hlater.done h' hdone).artifact, hdone.artifact]

/-- A body of three bytes in a spill, and one of one byte in memory. -/
def twoBodies : Store :=
  (((⟨.ofDirectories [["b"], ["a"]] [], ⟨true, .ofText "/b", 2, .both ∅⟩, .zero⟩ : Store).write
    .request ⟨"x"⟩ [1, 2, 3]).2.write .response ⟨"x"⟩ [7]).2

theorem twoBodies_reachable : twoBodies.Reachable := by
  have hstart : Reachable ⟨.ofDirectories [["b"], ["a"]] [], ⟨true, .ofText "/b", 2, .both ∅⟩,
      .zero⟩ := .start (Repository.buffer?_of_empty rfl)
  exact (hstart.call (.write .request ⟨"x"⟩ [1, 2, 3])).call (.write .response ⟨"x"⟩ [7])

/-- The same behind an attempt that copies the first body and then cannot remove its spill: the
artifact is complete, and the second body is still in its buffer. -/
theorem archive_attempts_keep_bytes_of_refused :
    let s : Store := { twoBodies with disk := { twoBodies.disk with
      responses := [.comply, .comply, .comply, .comply, .refuse .storageFull] } }
    let attempt := s.archiveInto ⟨"x"⟩ (.ofText "/a") fun _ => [0]
    attempt.1 = .error (.disk ((Path.ofText "/b").join "x_request.raw") .storageFull)
      ∧ attempt.2.repository.buffer? .request ⟨"x"⟩ = none
      ∧ attempt.2.repository.buffer? .response ⟨"x"⟩ = some (.inMemory [7])
      ∧ Survives ⟨"x"⟩ (.ofText "/a") (fun _ => [0]) s attempt.2 .request [1, 2, 3]
      ∧ Survives ⟨"x"⟩ (.ofText "/a") (fun _ => [0]) s attempt.2 .response [7] := by
  intro s attempt
  have hdisk : Disk.ChangesOnly (fun _ => False) twoBodies.disk s.disk := .of_entries rfl rfl
  have hs : s.Reachable := twoBodies_reachable.beside (fun _ _ _ _ hf => hf) hdisk rfl
  have hrequest : s.held .request ⟨"x"⟩ = some [1, 2, 3] := by decide +kernel
  have hresponse : s.held .response ⟨"x"⟩ = some [7] := by decide +kernel
  exact ⟨by decide +kernel, by decide +kernel, by decide +kernel,
    archive_attempts_keep_bytes hs Attempts.none.again hrequest,
    archive_attempts_keep_bytes hs Attempts.none.again hresponse⟩

end Wiretap.Store
