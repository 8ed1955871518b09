/-
  Wiretap.Proofs.Tallies
  ──────────────────────
  **THE COUNTERS OF THE CAPTURES TELL WHAT BECAME OF THE BUFFERS.**

  A key may get a buffer, lose it and get another one, any number of times.  What is seen under
  the key after each call gives the lives of its buffers (`Lineage`), those that were let go of
  and the one there is.  The counters are raised elsewhere, by what one write took; yet they say
  what the lives add up to:

    • `Store.write_wrote`         — a write raises them by what it adds to a life,
    • `Store.carryOut_releases`   — every other call leaves them, and ends lives at most,
    • `Accrues.total`             — so sums over lives grow as the counters do,
    • `Store.captures_add_up`     — the counters after any number of calls.
-/
import Mathlib.Algebra.BigOperators.Group.Finset.Basic
import Mathlib.Algebra.GroupWithZero.Nat
import Mathlib.Data.List.Induction
import Wiretap.Proofs.Confinement
import Wiretap.Proofs.FailedWrites

namespace Wiretap

/-- To count is to add up ones. -/
theorem countP_eq_sum {α : Type} (p : α → Bool) (l : List α) :
    l.countP p = (l.map fun a => (p a).toNat).sum := by
  induction l with
  | nil => rfl
  | cons a rest ih =>
      rw [List.countP_cons, List.map_cons, List.sum_cons, ih, Nat.add_comm]
      cases p a <;> rfl

/-! ## §1. Lives of buffers. -/

/-- What is told of the life of a buffer. -/
structure Life where
  /-- How many bytes it has, or had when it was let go of. -/
  size : Nat
  /-- Whether it ever was on disk. -/
  spilled : Bool
  deriving DecidableEq, Repr

/-- Whether a buffer is on disk. -/
def Buffer.isOnDisk (b : Buffer) : Bool := b.mode == .onDisk

/-- The life of a buffer that has only been seen now. -/
def Life.ofBuffer (b : Buffer) : Life := ⟨b.size, b.isOnDisk⟩

/-- The life of a buffer that is seen again. -/
def Life.see (l : Life) (b : Buffer) : Life := ⟨b.size, l.spilled || b.isOnDisk⟩

/-- The lives of all buffers of one key, as far as they were seen. -/
structure Lineage where
  /-- Those that were let go of. -/
  past : List Life
  /-- The one that there is. -/
  present : Option Life
  deriving DecidableEq, Repr

namespace Lineage

/-- Nothing was seen yet. -/
def empty : Lineage := ⟨[], none⟩

/-- One more look at the key. -/
def see (l : Lineage) : Option Buffer → Lineage
  | none => ⟨l.past ++ l.present.toList, none⟩
  | some b => ⟨l.past, some ((l.present.map (·.see b)).getD (.ofBuffer b))⟩

/-- All lives. -/
def lives (l : Lineage) : List Life := l.past ++ l.present.toList

/-- What the lives add up to, each with a weight. -/
def total (weight : Life → Nat) (l : Lineage) : Nat := (l.lives.map weight).sum

end Lineage

variable {weight : Life → Nat} {held held' : Option Buffer}

/-- The weight of what stands under a key. -/
def Life.weigh (weight : Life → Nat) (held : Option Buffer) : Nat :=
  (held.map fun b => weight (.ofBuffer b)).getD 0

/-- A buffer that is on disk stays there as long as there is one. -/
def StaysOnDisk (held held' : Option Buffer) : Prop :=
  ∀ b b', held = some b → held' = some b' → b.isOnDisk = true → b'.isOnDisk = true

theorem StaysOnDisk.refl (held : Option Buffer) : StaysOnDisk held held := by
  rintro b _ hb hb' hon
  rw [hb] at hb'
  cases hb'
  exact hon

theorem Life.weigh_spilled (held : Option Buffer) :
    Life.weigh (·.spilled.toNat) held = (held.any Buffer.isOnDisk).toNat := by
  cases held <;> rfl

namespace Lineage

variable {l : Lineage}

/-- What was seen last tells all there is to tell of the present buffer. -/
def Shows (l : Lineage) (held : Option Buffer) : Prop := l.present = held.map .ofBuffer

/-- A buffer seen again is no longer in memory if it ever was on disk. -/
theorem ofBuffer_see {b b' : Buffer} (h : b.isOnDisk = true → b'.isOnDisk = true) :
    (Life.ofBuffer b).see b' = .ofBuffer b' := by
  unfold Life.see Life.ofBuffer
  cases hb : b.isOnDisk with
  | false => rfl
  | true => rw [h hb]; rfl

theorem Shows.see (h : l.Shows held) (hstays : StaysOnDisk held held') :
    (l.see held').Shows held' := by
  unfold Shows at h ⊢
  cases held' with
  | none => rfl
  | some b' =>
      show some ((l.present.map (·.see b')).getD (.ofBuffer b')) = some (.ofBuffer b')
      rw [h]
      cases held with
      | none => rfl
      | some b => exact congrArg some (ofBuffer_see (hstays b b' rfl rfl))

/-- To let go of a buffer changes nothing of what the lives add up to. -/
theorem total_see_none (l : Lineage) : (l.see none).total weight = l.total weight := by
  simp [total, lives, see]

/-- What is added to a buffer is added to all lives. -/
theorem Shows.total_see (h : l.Shows held) {b : Buffer} (hstays : StaysOnDisk held (some b)) :
    (l.see (some b)).total weight + Life.weigh weight held
      = l.total weight + weight (.ofBuffer b) := by
  have hpresent : (l.see (some b)).present = some (.ofBuffer b) := h.see hstays
  have hpast : (l.see (some b)).past = l.past := rfl
  unfold Shows at h
  unfold total lives
  rw [hpresent, hpast, h]
  cases held with
  | none => simp [Life.weigh]
  | some b' =>
      simp only [Life.weigh, Option.map_some, Option.toList_some, Option.getD_some,
        List.map_append, List.map_cons, List.map_nil, List.sum_append, List.sum_singleton]
      omega

/-- Nothing changes where nothing new is seen. -/
theorem Shows.total_see_self (h : l.Shows held) : (l.see held).total weight = l.total weight := by
  cases held with
  | none => exact l.total_see_none
  | some b => exact Nat.add_right_cancel (h.total_see (.refl (some b)))

end Lineage

/-! ## §2. What one write takes. -/

namespace Spill

variable {disk disk' : Disk} {s s' : Spill} {path : Path} {parts : List Bytes}

theorem append_offset {chunk : Bytes} (h : s.append disk chunk = (.ok (), s', disk')) :
    s'.offset = s.offset + chunk.length := by
  let landing := land maxIdleAttempts disk.responses 0 s.offset chunk
  have hcheck : landing.outcome.check s.path landing.offset = .ok () := congrArg Prod.fst h
  have hcomplete : landing.outcome = .complete := by
    unfold LandingEnd.check at hcheck
    split at hcheck
    next hout => exact hout
    next => cases hcheck
    next => cases hcheck
  have hs : s' = { s with offset := landing.offset } := (congrArg (·.2.1) h).symm
  rw [hs, ← land_complete _ _ _ _ _ hcomplete]
  exact land_offset _ _ _ _ _

theorem appendAll_offset (h : s.appendAll disk parts = (.ok (), s', disk')) :
    s'.offset = s.offset + parts.flatten.length := by
  induction parts generalizing s disk with
  | nil =>
      cases h
      rfl
  | cons part rest ih =>
      unfold appendAll at h
      split at h
      next s₁ disk₁ hpart =>
        rw [ih h, append_offset hpart, List.flatten_cons, List.length_append, Nat.add_assoc]
      next hne => exact absurd h (hne s' disk')

theorem create_offset (h : create disk path parts = (.ok s, disk')) :
    s.offset = parts.flatten.length := by
  unfold create at h
  split at h
  next => cases h
  next handle disk₁ ho =>
    split at h
    next s₁ disk₂ ha =>
      cases h
      rw [appendAll_offset ha]
      exact Nat.zero_add _
    next => cases h

end Spill

namespace Buffer

variable {disk disk' : Disk} {chunk : Bytes} {threshold : Nat} {path : Path}

theorem append_ok {b b' : Buffer} {spilled : Bool}
    (h : b.append disk chunk threshold path = (.ok spilled, b', disk')) :
    b'.size = b.size + chunk.length ∧ b'.isOnDisk = (b.isOnDisk || spilled)
      ∧ (b.isOnDisk = true → spilled = false) := by
  cases b with
  | inMemory bytes =>
      simp only [append] at h
      split at h
      next =>
        split at h
        next spill disk₁ hcreate =>
          cases h
          refine ⟨?_, rfl, fun hdisk => absurd hdisk Bool.false_ne_true⟩
          show spill.offset = bytes.length + chunk.length
          simp [Spill.create_offset hcreate]
        next => cases h
      next =>
        cases h
        exact ⟨List.length_append, rfl, fun hdisk => absurd hdisk Bool.false_ne_true⟩
  | onDisk spill =>
      simp only [append] at h
      split at h
      next spill₁ disk₁ happend =>
        cases h
        exact ⟨Spill.append_offset happend, rfl, fun _ => rfl⟩
      next => cases h

theorem create_ok {b : Buffer} {spilled : Bool}
    (h : create disk chunk threshold path = (.ok (b, spilled), disk')) :
    b.size = chunk.length ∧ b.isOnDisk = spilled := by
  unfold create at h
  split at h
  next =>
    split at h
    next spill disk₁ hcreate =>
      cases h
      refine ⟨?_, rfl⟩
      show spill.offset = chunk.length
      simp [Spill.create_offset hcreate]
    next => cases h
  next =>
    cases h
    exact ⟨rfl, rfl⟩

/-- A write where there is a buffer is an append to it. -/
theorem write_some {buffer : Buffer} {outcome : Except CaptureFailure Bool}
    (h : write (some buffer) disk chunk threshold path = (outcome, held', disk')) :
    ∃ b, buffer.append disk chunk threshold path = (outcome, b, disk') ∧ held' = some b := by
  have houtcome := congrArg Prod.fst h
  have hheld := congrArg (·.2.1) h
  have hdisk := congrArg (·.2.2) h
  exact ⟨_, Prod.ext houtcome (Prod.ext rfl hdisk), hheld.symm⟩

/-- A write that succeeds adds its chunk, and tells whether it moved the buffer to disk. -/
theorem write_ok {spilled : Bool}
    (h : write held disk chunk threshold path = (.ok spilled, held', disk')) :
    ∃ b, held' = some b ∧ b.size = Life.weigh Life.size held + chunk.length
      ∧ b.isOnDisk = (held.any isOnDisk || spilled)
      ∧ (held.any isOnDisk = true → spilled = false) := by
  cases held with
  | none =>
      simp only [write] at h
      split at h
      next b spilled₁ disk₁ hcreate =>
        cases h
        obtain ⟨hsize, hdisk⟩ := create_ok hcreate
        exact ⟨b, rfl, hsize.trans (Nat.zero_add _).symm, hdisk,
          fun hnone => absurd hnone Bool.false_ne_true⟩
      next => cases h
  | some buffer =>
      obtain ⟨b, happend, hheld⟩ := write_some h
      obtain ⟨hsize, hdisk, hspilled⟩ := append_ok happend
      exact ⟨b, hheld, hsize, hdisk, hspilled⟩

/-- A write that fails makes no buffer and moves none, and one in memory stays what it was. -/
theorem write_error_held {failure : CaptureFailure}
    (h : write held disk chunk threshold path = (.error failure, held', disk')) :
    (held' = held ∧ held.any isOnDisk = false)
      ∨ ∃ b b', held = some b ∧ held' = some b' ∧ b.isOnDisk = true ∧ b'.isOnDisk = true := by
  cases held with
  | none =>
      have hnone := write_none_error (congrArg Prod.fst h)
      rw [h] at hnone
      exact Or.inl ⟨hnone, rfl⟩
  | some buffer =>
      obtain ⟨b, happend, rfl⟩ := write_some h
      rcases append_error_cases happend with ⟨bytes, rfl, rfl⟩ | ⟨spill, rfl, rfl, -⟩
      · exact Or.inl ⟨rfl, rfl⟩
      · exact Or.inr ⟨_, _, rfl, rfl, rfl, rfl⟩

end Buffer

/-! ## §3. What a call does to lives and counters. -/

/-- Whether a file is made or emptied at a path, and all of some data lands in it. -/
def Disk.writesWhole (disk : Disk) (path : Path) (data : Bytes) : Bool :=
  match disk.openFile path true with
  | (.ok handle, disk) => (disk.write 1 handle 0 data).1.landed == data
  | (.error _, _) => false

/-- To write a file succeeds just when all of the data landed. -/
theorem Disk.writeFile_isOk (disk : Disk) (path : Path) (data : Bytes) :
    (disk.writeFile path data).1.isOk = disk.writesWhole path data := by
  unfold writeFile writesWhole
  split
  next fault disk₁ ho => rw [ho]; rfl
  next handle disk₁ ho =>
    rw [ho]
    dsimp only
    have hiff : (disk₁.writeAll handle 0 data).1 = .ok ()
        ↔ (disk₁.write 1 handle 0 data).1.landed = data :=
      writeAll_fst.trans ⟨land_complete 1 disk₁.responses 0 0 data,
        land_complete_of_landed 1 disk₁.responses 0 0 data⟩
    cases hw : (disk₁.writeAll handle 0 data).1 with
    | ok done => exact (beq_iff_eq.mpr (hiff.mp hw)).symm
    | error fault =>
        refine (beq_eq_false_iff_ne.mpr fun hlanded => ?_).symm
        rw [hiff.mpr hlanded] at hw
        cases hw

/-- How a counter follows the buffers of a direction from one store to a later one: it stays while
buffers are let go of at most, or it is raised by what is added to one of them. -/
inductive Accrues (weight : Life → Nat) (d : Direction) (s s' : Store) (n n' : Nat) : Prop
  | rests (hn : n' = n) (hentries : ∀ id, s'.repository.buffer? d id = s.repository.buffer? d id
      ∨ s'.repository.buffer? d id = none)
  | grows {id : ExchangeId} {b : Buffer} (hb : s'.repository.buffer? d id = some b)
      (hothers : ∀ other, other ≠ id →
        s'.repository.buffer? d other = s.repository.buffer? d other)
      (hn : n' + Life.weigh weight (s.repository.buffer? d id) = n + weight (.ofBuffer b))

namespace Store

variable {s s' s'' : Store} {d d' : Direction} {id : ExchangeId} {chunk : Bytes}

/-- From one store to a later one, no buffer was made or changed; some may be gone. -/
def Releases (s s' : Store) : Prop :=
  ∀ d id, s'.repository.buffer? d id = s.repository.buffer? d id
    ∨ s'.repository.buffer? d id = none

theorem Releases.refl (s : Store) : Releases s s := fun _ _ => Or.inl rfl

theorem Releases.trans (h : Releases s s') (h' : Releases s' s'') : Releases s s'' := by
  intro d id
  rcases h' d id with hsame | hnone
  · rw [hsame]
    exact h d id
  · exact Or.inr hnone

theorem releases_release {disk : Disk} {metrics : Metrics} (s : Store) (d : Direction)
    (id : ExchangeId) : Releases s ⟨disk, s.repository.release d id, metrics⟩ := by
  intro d' id'
  show (s.repository.release d id).buffer? d' id' = _ ∨ _
  rw [Repository.buffer?_release]
  split
  next => exact Or.inr rfl
  next => exact Or.inl rfl

theorem cleanupDirection_releases (s : Store) (id : ExchangeId) (d : Direction) :
    Releases s (s.cleanupDirection id d)
      ∧ (s.cleanupDirection id d).metrics = s.metrics := by
  unfold cleanupDirection
  split
  next => exact ⟨.refl s, rfl⟩
  next => split <;> exact ⟨releases_release s d id, rfl⟩

theorem cleanup_releases (s : Store) (id : ExchangeId) :
    Releases s (s.cleanup id) ∧ (s.cleanup id).metrics = s.metrics := by
  obtain ⟨hfirst, hsame⟩ := cleanupDirection_releases s id .request
  obtain ⟨hsecond, hsame'⟩ :=
    cleanupDirection_releases (s.cleanupDirection id .request) id .response
  exact ⟨hfirst.trans hsecond, hsame'.trans hsame⟩

theorem archiveDirection_releases (s : Store) (id : ExchangeId) (target : Path)
    (preamble : Bytes) (d : Direction) :
    Releases s (s.archiveDirection id target preamble d).2
      ∧ (s.archiveDirection id target preamble d).2.metrics = s.metrics := by
  unfold archiveDirection
  dsimp only
  split
  next => exact ⟨.refl s, rfl⟩
  next =>
    split
    next => exact ⟨.refl s, rfl⟩
    next =>
      split
      next => split <;> exact ⟨releases_release s d id, rfl⟩
      next => exact ⟨releases_release s d id, rfl⟩

theorem archiveInto_releases (s : Store) (id : ExchangeId) (target : Path)
    (preamble : Direction → Bytes) :
    Releases s (s.archiveInto id target preamble).2
      ∧ (s.archiveInto id target preamble).2.metrics = s.metrics := by
  have hfirst := archiveDirection_releases s id target (preamble .request) .request
  unfold archiveInto
  split
  next hw => rwa [hw] at hfirst
  next s₁ hw =>
    rw [hw] at hfirst
    have hsecond := archiveDirection_releases s₁ id target (preamble .response) .response
    split
    next hw₂ =>
      rw [hw₂] at hsecond
      exact ⟨hfirst.1.trans hsecond.1, hsecond.2.trans hfirst.2⟩
    next hw₂ =>
      rw [hw₂] at hsecond
      exact ⟨hfirst.1.trans hsecond.1, hsecond.2.trans hfirst.2⟩

/-- Whether the buffer under a key is in memory and all of it lands in its emergency file. -/
def savesWhole (s : Store) (d : Direction) (id : ExchangeId) : Bool :=
  match s.repository.buffer? d id with
  | some (.inMemory bytes) => s.disk.writesWhole (s.repository.emergencyPath d id) bytes
  | _ => false

theorem persistDirection_releases (s : Store) (id : ExchangeId) (d : Direction) :
    Releases s (s.persistDirection id d)
      ∧ (s.persistDirection id d).metrics = { s.metrics with
          emergencyPersists := s.metrics.emergencyPersists + (s.savesWhole d id).toNat } := by
  unfold persistDirection savesWhole
  cases hb : s.repository.buffer? d id with
  | none => exact ⟨.refl s, rfl⟩
  | some buffer =>
      cases buffer with
      | onDisk spill => exact ⟨releases_release s d id, rfl⟩
      | inMemory bytes =>
          have hsame : (s.repository.release d id).emergencyPath d id
              = s.repository.emergencyPath d id := rfl
          simp only [hsame, ← Disk.writeFile_isOk]
          split
          next hw => exact ⟨releases_release s d id, by rw [hw]; rfl⟩
          next hw => exact ⟨releases_release s d id, by rw [hw]; rfl⟩

/-- How many emergency files a call writes completely. -/
def emergencies (s : Store) : FileCall → Nat
  | .persist id => Direction.all.countP fun d => (s.beforeSaving id d).savesWhole d id
  | _ => 0

theorem persist_releases (s : Store) (id : ExchangeId) :
    Releases s (s.persist id)
      ∧ (s.persist id).metrics = { s.metrics with
          emergencyPersists := s.metrics.emergencyPersists + s.emergencies (.persist id) } := by
  obtain ⟨hfirst, hmetrics⟩ := persistDirection_releases s id .request
  obtain ⟨hsecond, hmetrics'⟩ :=
    persistDirection_releases (s.persistDirection id .request) id .response
  refine ⟨hfirst.trans hsecond, hmetrics'.trans ?_⟩
  have hcount : s.emergencies (.persist id) = (s.savesWhole .request id).toNat
      + ((s.persistDirection id .request).savesWhole .response id).toNat := by
    show Direction.all.countP _ = _
    rw [countP_eq_sum]
    rfl
  rw [hmetrics, hcount, Nat.add_assoc]

/-- Archiving an exchange raises one counter, by one where it succeeds. -/
theorem archive_releases (s : Store) (base : Path) (r : Record) :
    Releases s (Archive.archive s base r).2
      ∧ (Archive.archive s base r).2.metrics = { s.metrics with
          archived := s.metrics.archived + (Archive.archive s base r).1.isOk.toNat } := by
  unfold Archive.archive
  split
  next => exact ⟨.refl s, rfl⟩
  next directory hshard =>
    split
    next => exact ⟨.refl s, rfl⟩
    next disk hmade =>
      have hinto := archiveInto_releases { s with disk } r.id directory (preambles r)
      dsimp only
      split
      next hw =>
        have hw' : ({ s with disk } : Store).archiveInto r.id directory (preambles r) = _ := hw
        rw [hw'] at hinto
        exact ⟨hinto.1, hinto.2⟩
      next hw =>
        have hw' : ({ s with disk } : Store).archiveInto r.id directory (preambles r) = _ := hw
        rw [hw'] at hinto
        refine ⟨hinto.1, ?_⟩
        rw [hinto.2]
        rfl

/-- From one store to a later one, nothing changed but what stands under a key. -/
def Puts (d : Direction) (id : ExchangeId) (held : Option Buffer) (s s' : Store) : Prop :=
  ∀ d' id', s'.repository.buffer? d' id'
    = if d' = d ∧ id' = id then held else s.repository.buffer? d' id'

/-- What a write of so many bytes does to its key and to the counters, by how it ends. -/
inductive Wrote (d : Direction) (id : ExchangeId) (size : Nat) (s s' : Store) :
    Except CaptureFailure Unit → Prop
  /-- Nothing was written. -/
  | nothing {outcome : Except CaptureFailure Unit} (hputs : Releases s s')
      (hmetrics : s'.metrics = s.metrics) : Wrote d id size s s' outcome
  /-- All was written, and it is counted. -/
  | all {b : Buffer} {spilled : Bool} (hputs : Puts d id (some b) s s')
      (hsize : b.size = Life.weigh Life.size (s.repository.buffer? d id) + size)
      (hdisk : b.isOnDisk = ((s.repository.buffer? d id).any Buffer.isOnDisk || spilled))
      (hspilled : (s.repository.buffer? d id).any Buffer.isOnDisk = true → spilled = false)
      (hmetrics : s'.metrics = (s.counted d size spilled).metrics) : Wrote d id size s s' (.ok ())
  /-- A spill refused some of it, and nothing is counted. -/
  | part {b b' : Buffer} {failure : CaptureFailure} (hb : s.repository.buffer? d id = some b)
      (hdisk : b.isOnDisk = true) (hputs : Puts d id (some b') s s') (hdisk' : b'.isOnDisk = true)
      (hmetrics : s'.metrics = s.metrics) : Wrote d id size s s' (.error failure)

theorem write_wrote (s : Store) (d : Direction) (id : ExchangeId) (chunk : Bytes) :
    Wrote d id chunk.length s (s.write d id chunk).2 (s.write d id chunk).1 := by
  have hputs (held : Option Buffer) (disk : Disk) (metrics : Metrics) :
      Puts d id (held.or (s.repository.buffer? d id)) s
        ⟨disk, s.repository.hold d id held, metrics⟩ :=
    fun d' id' => Repository.buffer?_hold s.repository d d' id id' held
  unfold write
  dsimp only
  split
  next => exact .nothing (.refl s) rfl
  next =>
    split
    next => exact .nothing (.refl s) rfl
    next =>
      generalize hentry : Buffer.write (s.repository.buffer? d id) s.disk chunk
        s.repository.threshold (s.repository.bufferPath d id) = entry
      obtain ⟨outcome, held, disk⟩ := entry
      cases outcome with
      | ok spilled =>
          obtain ⟨b, rfl, hsize, hdisk, hspilled⟩ := Buffer.write_ok hentry
          exact .all (hputs (some b) disk _) hsize hdisk hspilled rfl
      | error failure =>
          rcases Buffer.write_error_held hentry with ⟨rfl, -⟩ | ⟨b, b', hb, rfl, hdisk, hdisk'⟩
          · refine .nothing (fun d' id' => Or.inl ?_) rfl
            refine (hputs _ disk s.metrics d' id').trans ?_
            split
            next hkey => rw [hkey.1, hkey.2, Option.or_self]
            next => rfl
          · exact .part hb hdisk (hputs (some b') disk s.metrics) hdisk' rfl

theorem counted_captureBytes (s : Store) (d d' : Direction) (size : Nat) (spilled : Bool) :
    (s.counted d size spilled).metrics.captureBytes.of d'
      = if d = d' then s.metrics.captureBytes.of d' + size else s.metrics.captureBytes.of d' := by
  cases spilled <;> exact PerDirection.of_modify ..

theorem counted_spills (s : Store) (d d' : Direction) (size : Nat) (spilled : Bool) :
    (s.counted d size spilled).metrics.spills.of d'
      = if d = d' then s.metrics.spills.of d' + spilled.toNat else s.metrics.spills.of d' := by
  cases spilled with
  | false => exact (ite_self _).symm
  | true => exact PerDirection.of_modify ..

theorem Puts.at_key {held : Option Buffer} (h : Puts d id held s s') :
    s'.repository.buffer? d id = held := (h d id).trans (if_pos ⟨rfl, rfl⟩)

theorem Puts.elsewhere {held : Option Buffer} (h : Puts d id held s s') {id' : ExchangeId}
    (hother : ¬ (d' = d ∧ id' = id)) :
    s'.repository.buffer? d' id' = s.repository.buffer? d' id' := (h d' id').trans (if_neg hother)

/-- What is put under a key is all that is added to a direction. -/
theorem Puts.accrues {b : Buffer} {n n' : Nat} (h : Puts d id (some b) s s')
    (hsame : d' ≠ d → n' = n)
    (hn : d' = d → n' + Life.weigh weight (s.repository.buffer? d id) = n + weight (.ofBuffer b)) :
    Accrues weight d' s s' n n' := by
  by_cases hd : d' = d
  · subst hd
    exact .grows h.at_key (fun other hother => h.elsewhere fun hkey => hother hkey.2) (hn rfl)
  · exact .rests (hsame hd) fun other => Or.inl (h.elsewhere fun hkey => hd hkey.1)

variable {size : Nat} {outcome : Except CaptureFailure Unit}

/-- What a write has no part in. -/
theorem Wrote.others (h : Wrote d id size s s' outcome) :
    s'.metrics.emergencyPersists = s.metrics.emergencyPersists
      ∧ s'.metrics.archived = s.metrics.archived := by
  cases h with
  | nothing hreleases hmetrics => rw [hmetrics]; exact ⟨rfl, rfl⟩
  | @all b spilled hputs hsize hdisk hspilled hmetrics =>
      rw [hmetrics]
      cases spilled <;> exact ⟨rfl, rfl⟩
  | part hb hdisk hputs hdisk' hmetrics => rw [hmetrics]; exact ⟨rfl, rfl⟩

/-- A change of one key that leaves its buffer on disk leaves all others where they are. -/
theorem Puts.stays {b : Buffer} (h : Puts d id (some b) s s')
    (hdisk : (s.repository.buffer? d id).any Buffer.isOnDisk = true → b.isOnDisk = true)
    (d' : Direction) (id' : ExchangeId) :
    StaysOnDisk (s.repository.buffer? d' id') (s'.repository.buffer? d' id') := by
  by_cases hkey : d' = d ∧ id' = id
  · obtain ⟨rfl, rfl⟩ := hkey
    rw [h.at_key]
    rintro b₁ _ hb ⟨⟩ hon
    exact hdisk (by rw [hb]; exact hon)
  · rw [h.elsewhere hkey]
    exact .refl _

theorem Releases.stays (h : Releases s s') (d : Direction) (id : ExchangeId) :
    StaysOnDisk (s.repository.buffer? d id) (s'.repository.buffer? d id) := by
  rcases h d id with hsame | hnone
  · rw [hsame]
    exact .refl _
  · rw [hnone]
    rintro _ _ - ⟨⟩

/-- A write moves no buffer back into memory. -/
theorem Wrote.stays (h : Wrote d id size s s' outcome) (d' : Direction) (id' : ExchangeId) :
    StaysOnDisk (s.repository.buffer? d' id') (s'.repository.buffer? d' id') := by
  cases h with
  | nothing hreleases hmetrics => exact hreleases.stays d' id'
  | all hputs hsize hdisk hspilled hmetrics =>
      exact hputs.stays (fun hon => by rw [hdisk, hon]; rfl) d' id'
  | part hb hdisk hputs hdisk' hmetrics => exact hputs.stays (fun _ => hdisk') d' id'

/-- The number of spills follows what a write moves to disk. -/
theorem Wrote.spills (h : Wrote d id size s s' outcome) (d' : Direction) :
    Accrues (·.spilled.toNat) d' s s' (s.metrics.spills.of d') (s'.metrics.spills.of d') := by
  cases h with
  | nothing hreleases hmetrics => exact .rests (by rw [hmetrics]) (hreleases d')
  | @all b spilled hputs hsize hdisk hspilled hmetrics =>
      rw [hmetrics, counted_spills]
      refine hputs.accrues (fun hd => if_neg (Ne.symm hd)) fun hd => ?_
      rw [if_pos hd.symm, Life.weigh_spilled]
      show _ = _ + b.isOnDisk.toNat
      rw [hdisk]
      -- it is moved to disk once
      cases hon : (s.repository.buffer? d id).any Buffer.isOnDisk with
      | false => rw [Bool.false_or]; rfl
      | true => rw [hspilled hon]; rfl
  | @part b b' failure hb hdisk hputs hdisk' hmetrics =>
      rw [hmetrics]
      refine hputs.accrues (fun _ => rfl) fun _ => ?_
      rw [Life.weigh_spilled, hb]
      show _ + b.isOnDisk.toNat = _ + b'.isOnDisk.toNat
      rw [hdisk, hdisk']

/-- The number of bytes follows what a write adds, unless a spill refuses it. -/
theorem Wrote.captureBytes (h : Wrote d id size s s' outcome)
    (hok : (s.repository.buffer? d id).any Buffer.isOnDisk = true → outcome = .ok ())
    (d' : Direction) : Accrues Life.size d' s s' (s.metrics.captureBytes.of d')
      (s'.metrics.captureBytes.of d') := by
  cases h with
  | nothing hreleases hmetrics => exact .rests (by rw [hmetrics]) (hreleases d')
  | @all b spilled hputs hsize hdisk hspilled hmetrics =>
      rw [hmetrics, counted_captureBytes]
      refine hputs.accrues (fun hd => if_neg (Ne.symm hd)) fun hd => ?_
      rw [if_pos hd.symm]
      show _ = _ + b.size
      omega
  | part hb hdisk hputs hdisk' hmetrics =>
      rw [hb] at hok
      cases hok hdisk

/-- A call that is no write lets go of buffers at most, and leaves what was captured alone. -/
theorem carryOut_releases (s : Store) {call : FileCall}
    (hcall : ∀ d id chunk, call ≠ .write d id chunk) :
    Releases s (s.carryOut call)
      ∧ (s.carryOut call).metrics.captureBytes = s.metrics.captureBytes
      ∧ (s.carryOut call).metrics.spills = s.metrics.spills := by
  cases call with
  | write d id chunk => exact absurd rfl (hcall d id chunk)
  | cleanup id =>
      show Releases s (s.cleanup id) ∧ (s.cleanup id).metrics.captureBytes = _
        ∧ (s.cleanup id).metrics.spills = _
      obtain ⟨hreleases, hmetrics⟩ := cleanup_releases s id
      rw [hmetrics]
      exact ⟨hreleases, rfl, rfl⟩
  | persist id =>
      show Releases s (s.persist id) ∧ (s.persist id).metrics.captureBytes = _
        ∧ (s.persist id).metrics.spills = _
      obtain ⟨hreleases, hmetrics⟩ := persist_releases s id
      rw [hmetrics]
      exact ⟨hreleases, rfl, rfl⟩
  | archive base r =>
      show Releases s (Archive.archive s base r).2
        ∧ (Archive.archive s base r).2.metrics.captureBytes = _
        ∧ (Archive.archive s base r).2.metrics.spills = _
      obtain ⟨hreleases, hmetrics⟩ := archive_releases s base r
      rw [hmetrics]
      exact ⟨hreleases, rfl, rfl⟩

/-- If the call is an append to a spill, it does not fail. -/
def SpillsTake (s : Store) : FileCall → Prop
  | .write d id chunk => (s.repository.buffer? d id).any Buffer.isOnDisk = true →
    (s.write d id chunk).1 = .ok ()
  | _ => True

instance (s : Store) : DecidablePred s.SpillsTake
  | .write d id chunk => inferInstanceAs (Decidable
      ((s.repository.buffer? d id).any Buffer.isOnDisk = true → (s.write d id chunk).1 = .ok ()))
  | .cleanup _ => .isTrue trivial
  | .persist _ => .isTrue trivial
  | .archive _ _ => .isTrue trivial

theorem carryOut_stays (s : Store) (call : FileCall) (d : Direction) (id : ExchangeId) :
    StaysOnDisk (s.repository.buffer? d id) ((s.carryOut call).repository.buffer? d id) := by
  by_cases hcall : ∀ d id chunk, call ≠ .write d id chunk
  · exact (carryOut_releases s hcall).1.stays d id
  · push Not at hcall
    obtain ⟨d', id', chunk, rfl⟩ := hcall
    exact (write_wrote s d' id' chunk).stays d id

theorem carryOut_spills (s : Store) (call : FileCall) (d : Direction) :
    Accrues (·.spilled.toNat) d s (s.carryOut call) (s.metrics.spills.of d)
      ((s.carryOut call).metrics.spills.of d) := by
  by_cases hcall : ∀ d id chunk, call ≠ .write d id chunk
  · obtain ⟨hreleases, -, hspills⟩ := carryOut_releases s hcall
    exact .rests (by rw [hspills]) (hreleases d)
  · push Not at hcall
    obtain ⟨d', id', chunk, rfl⟩ := hcall
    exact (write_wrote s d' id' chunk).spills d

theorem carryOut_captureBytes (s : Store) {call : FileCall} (htake : s.SpillsTake call)
    (d : Direction) :
    Accrues Life.size d s (s.carryOut call) (s.metrics.captureBytes.of d)
      ((s.carryOut call).metrics.captureBytes.of d) := by
  by_cases hcall : ∀ d id chunk, call ≠ .write d id chunk
  · obtain ⟨hreleases, hbytes, -⟩ := carryOut_releases s hcall
    exact .rests (by rw [hbytes]) (hreleases d)
  · push Not at hcall
    obtain ⟨d', id', chunk, rfl⟩ := hcall
    exact (write_wrote s d' id' chunk).captureBytes htake d

/-- Whether a call archives an exchange, and says so. -/
def archives (s : Store) : FileCall → Bool
  | .archive base r => (Archive.archive s base r).1.isOk
  | _ => false

/-- The other two counters are raised by the calls that they are about. -/
theorem carryOut_counts (s : Store) (call : FileCall) :
    (s.carryOut call).metrics.emergencyPersists
        = s.metrics.emergencyPersists + s.emergencies call
      ∧ (s.carryOut call).metrics.archived = s.metrics.archived + (s.archives call).toNat := by
  cases call with
  | write d id chunk => exact (write_wrote s d id chunk).others
  | cleanup id =>
      show (s.cleanup id).metrics.emergencyPersists = _ ∧ (s.cleanup id).metrics.archived = _
      rw [(cleanup_releases s id).2]
      exact ⟨rfl, rfl⟩
  | persist id =>
      show (s.persist id).metrics.emergencyPersists = _ ∧ (s.persist id).metrics.archived = _
      rw [(persist_releases s id).2]
      exact ⟨rfl, rfl⟩
  | archive base r =>
      show (Archive.archive s base r).2.metrics.emergencyPersists = _
        ∧ (Archive.archive s base r).2.metrics.archived = _
      rw [(archive_releases s base r).2]
      exact ⟨rfl, rfl⟩

/-! ## §4. Any number of calls. -/

/-- Some calls, each with the store in which it is made. -/
def made (s : Store) : List FileCall → List (Store × FileCall)
  | [] => []
  | call :: rest => (s, call) :: (s.carryOut call).made rest

/-- The store before some calls, and after each of them. -/
def moments (s : Store) (calls : List FileCall) : List Store :=
  s :: (s.made calls).map fun m => m.1.carryOut m.2

/-- What was seen under a key, from before some calls to after the last of them. -/
def lineage (s : Store) (calls : List FileCall) (d : Direction) (id : ExchangeId) : Lineage :=
  (s.moments calls).foldl (fun l s => l.see (s.repository.buffer? d id)) .empty

/-- The exchanges that have a buffer of a direction, or had one at some time. -/
def everHeld (s : Store) (calls : List FileCall) (d : Direction) : Finset ExchangeId :=
  ((s.moments calls).flatMap fun s => (s.repository.buffers.of d).keys.map .mk).toFinset

theorem made_concat (s : Store) (calls : List FileCall) (call : FileCall) :
    s.made (calls ++ [call]) = s.made calls ++ [(s.carryOutAll calls, call)] := by
  induction calls generalizing s with
  | nil => rfl
  | cons first rest ih => exact congrArg ((s, first) :: ·) (ih (s.carryOut first))

theorem carryOutAll_concat (s : Store) (calls : List FileCall) (call : FileCall) :
    s.carryOutAll (calls ++ [call]) = (s.carryOutAll calls).carryOut call :=
  List.foldl_concat ..

theorem moments_concat (s : Store) (calls : List FileCall) (call : FileCall) :
    s.moments (calls ++ [call]) = s.moments calls ++ [s.carryOutAll (calls ++ [call])] := by
  simp only [moments, made_concat, carryOutAll_concat, List.map_append, List.map_cons,
    List.map_nil, List.cons_append]

theorem lineage_concat (s : Store) (calls : List FileCall) (call : FileCall) (d : Direction)
    (id : ExchangeId) : s.lineage (calls ++ [call]) d id
      = (s.lineage calls d id).see
        ((s.carryOutAll (calls ++ [call])).repository.buffer? d id) := by
  rw [lineage, moments_concat, List.foldl_concat]
  rfl

theorem mem_everHeld {calls : List FileCall} : id ∈ s.everHeld calls d
    ↔ ∃ t ∈ s.moments calls, (t.repository.buffer? d id).isSome = true := by
  simp only [everHeld, List.mem_toFinset, List.mem_flatMap, List.mem_map, Std.ExtTreeMap.mem_keys]
  refine exists_congr fun t => and_congr_right fun _ => ?_
  constructor
  · rintro ⟨text, hmem, rfl⟩
    exact Std.ExtTreeMap.isSome_getElem?_iff_mem.mpr hmem
  · exact fun h => ⟨id.text, Std.ExtTreeMap.isSome_getElem?_iff_mem.mp h, rfl⟩

theorem everHeld_subset (s : Store) (calls : List FileCall) (call : FileCall) (d : Direction) :
    s.everHeld calls d ⊆ s.everHeld (calls ++ [call]) d := by
  intro id h
  obtain ⟨t, ht, hsome⟩ := mem_everHeld.mp h
  rw [mem_everHeld, moments_concat]
  exact ⟨t, List.mem_append_left _ ht, hsome⟩

/-- What is seen under a key at last is what stands there. -/
theorem lineage_shows (s : Store) (calls : List FileCall) (d : Direction) (id : ExchangeId) :
    (s.lineage calls d id).Shows ((s.carryOutAll calls).repository.buffer? d id) := by
  induction calls using List.reverseRecOn with
  | nil =>
      show (Lineage.empty.see (s.repository.buffer? d id)).Shows (s.repository.buffer? d id)
      cases s.repository.buffer? d id <;> rfl
  | append_singleton calls call ih =>
      rw [lineage_concat]
      refine ih.see ?_
      rw [carryOutAll_concat]
      exact carryOut_stays _ call d id

end Store

/-- A sum over the lives of all buffers of a direction grows as a counter does that follows
them. -/
theorem Accrues.total {d : Direction} {s s' : Store} {n n' : Nat}
    (h : Accrues weight d s s' n n') {lineage : ExchangeId → Lineage} {ids : Finset ExchangeId}
    (hshows : ∀ id, (lineage id).Shows (s.repository.buffer? d id))
    (hstays : ∀ id, StaysOnDisk (s.repository.buffer? d id) (s'.repository.buffer? d id))
    (hids : ∀ id, (s'.repository.buffer? d id).isSome = true → id ∈ ids)
    (hn : n = ∑ id ∈ ids, (lineage id).total weight) :
    n' = ∑ id ∈ ids, ((lineage id).see (s'.repository.buffer? d id)).total weight := by
  cases h with
  | rests hsame hentries =>
      rw [hsame, hn]
      refine Finset.sum_congr rfl fun id _ => ?_
      rcases hentries id with heq | hnone
      · rw [heq, (hshows id).total_see_self]
      · rw [hnone, Lineage.total_see_none]
  | @grows id b hb hothers hadds =>
      -- all lineages but one are what they were
      have hid : id ∈ ids := hids id (by rw [hb]; rfl)
      rw [← Finset.add_sum_erase ids _ hid] at hn ⊢
      have hrest : ∑ other ∈ ids.erase id,
            ((lineage other).see (s'.repository.buffer? d other)).total weight
          = ∑ other ∈ ids.erase id, (lineage other).total weight := by
        refine Finset.sum_congr rfl fun other hother => ?_
        rw [hothers other (Finset.ne_of_mem_erase hother), (hshows other).total_see_self]
      have hone : ((lineage id).see (some b)).total weight
          + Life.weigh weight (s.repository.buffer? d id)
            = (lineage id).total weight + weight (.ofBuffer b) :=
        (hshows id).total_see (by rw [← hb]; exact hstays id)
      rw [hrest, hb]
      omega

namespace Store

variable {s : Store} {d : Direction} {calls : List FileCall}

/-- A counter that follows every call is the sum over all lives that there were. -/
theorem counter_eq_sum (weight : Life → Nat) (counter : Store → Nat) (hzero : counter s = 0)
    (hempty : ∀ id, s.repository.buffer? d id = none)
    (hcalls : ∀ m ∈ s.made calls, Accrues weight d m.1 (m.1.carryOut m.2) (counter m.1)
      (counter (m.1.carryOut m.2)))
    {ids : Finset ExchangeId} (hids : s.everHeld calls d ⊆ ids) :
    counter (s.carryOutAll calls) = ∑ id ∈ ids, (s.lineage calls d id).total weight := by
  -- by induction on the calls, for all sets of exchanges that are large enough
  induction calls using List.reverseRecOn with
  | nil =>
      refine hzero.trans (Finset.sum_eq_zero fun id _ => ?_).symm
      show (Lineage.empty.see (s.repository.buffer? d id)).total weight = 0
      rw [hempty id]
      rfl
  | append_singleton calls call ih =>
      rw [made_concat] at hcalls
      have hlast := hcalls _ (List.mem_append_right _ (List.mem_singleton_self _))
      have hsofar := ih (fun m hm => hcalls m (List.mem_append_left _ hm))
        ((everHeld_subset s calls call d).trans hids)
      simp only [lineage_concat]
      rw [carryOutAll_concat]
      refine hlast.total (fun id => lineage_shows s calls d id)
        (fun id => carryOut_stays _ call d id) (fun id hsome => hids ?_) hsofar
      rw [mem_everHeld, moments_concat, carryOutAll_concat]
      exact ⟨_, List.mem_append_right _ (List.mem_singleton_self _), hsome⟩

/-- A counter that each call raises by some number is the sum of these numbers. -/
theorem sum_of_calls (counter : Store → Nat) {f : Store → FileCall → Nat}
    (hcall : ∀ s call, counter (s.carryOut call) = counter s + f s call) (s : Store)
    (calls : List FileCall) :
    counter (s.carryOutAll calls) = counter s + ((s.made calls).map fun m => f m.1 m.2).sum := by
  induction calls generalizing s with
  | nil => rfl
  | cons call rest ih =>
      show counter ((s.carryOut call).carryOutAll rest) = _
      rw [ih, hcall, Nat.add_assoc]
      rfl

/-- **The counters of the captures add up.**  Whatever the calls on an empty store are, and
whatever the disk answers, there were as many spills as buffers that ever were on disk, as many
emergency files as were written completely, and as many archived exchanges as archive calls that
succeeded.  The bytes are those of all buffers that there are or ever were, as they are now or
were when they were let go of, if no append to a spill failed. -/
theorem captures_add_up (s : Store) (hempty : s.repository.buffers = .both ∅)
    (hzero : s.metrics = .zero) (calls : List FileCall) :
    ((∀ m ∈ s.made calls, m.1.SpillsTake m.2) → ∀ d,
      (s.carryOutAll calls).metrics.captureBytes.of d
        = ∑ id ∈ s.everHeld calls d, ((s.lineage calls d id).lives.map Life.size).sum)
    ∧ (∀ d, (s.carryOutAll calls).metrics.spills.of d
        = ∑ id ∈ s.everHeld calls d, (s.lineage calls d id).lives.countP Life.spilled)
    ∧ (s.carryOutAll calls).metrics.emergencyPersists
        = ((s.made calls).map fun m => m.1.emergencies m.2).sum
    ∧ (s.carryOutAll calls).metrics.archived
        = (s.made calls).countP fun m => m.1.archives m.2 := by
  have hnone (d : Direction) (id : ExchangeId) : s.repository.buffer? d id = none :=
    Repository.buffer?_of_empty hempty d id
  refine ⟨fun htake d => ?_, fun d => ?_, ?_, ?_⟩
  · refine counter_eq_sum Life.size (fun t => t.metrics.captureBytes.of d)
      (by rw [hzero]; cases d <;> rfl) (hnone d) (fun m hm => ?_) (Finset.Subset.refl _)
    exact carryOut_captureBytes m.1 (htake m hm) d
  · simp only [countP_eq_sum]
    refine counter_eq_sum (·.spilled.toNat) (fun t => t.metrics.spills.of d)
      (by rw [hzero]; cases d <;> rfl) (hnone d) (fun m _ => ?_) (Finset.Subset.refl _)
    exact carryOut_spills m.1 m.2 d
  · have hsum := sum_of_calls (·.metrics.emergencyPersists)
      (fun s call => (carryOut_counts s call).1) s calls
    simpa only [hzero, Metrics.zero, Nat.zero_add] using hsum
  · have hsum := sum_of_calls (·.metrics.archived)
      (fun s call => (carryOut_counts s call).2) s calls
    simpa only [hzero, Metrics.zero, Nat.zero_add, countP_eq_sum] using hsum

/-- A disk that takes one spill piece by piece, and refuses another, the removal of a file and the
end of an emergency file. -/
def faulty : Store :=
  { twoDirectories with
    disk := { twoDirectories.disk with
      responses := [.comply, .short 1, .comply, .refuse .storageFull, .comply,
        .refuse .storageFull, .comply, .short 1, .refuse .storageFull] } }

/-- The same of a key that gets a buffer three times, on a disk that refuses a spill, a removal
and an emergency file. -/
theorem captures_add_up_of_faults :
    let calls : List FileCall := [.write .request ⟨"abcd"⟩ [1, 2, 3], .write .response ⟨"wxyz"⟩ [1],
      .write .response ⟨"wxyz"⟩ [2, 3], .write .response ⟨"wxyz"⟩ [2],
      .write .request ⟨"abcd"⟩ [4], .cleanup ⟨"abcd"⟩, .write .request ⟨"abcd"⟩ [5],
      .persist ⟨"wxyz"⟩, .persist ⟨"abcd"⟩, .write .request ⟨"abcd"⟩ [6, 7, 8],
      .archive (.ofText "/a") firstRecord, .archive (.ofText "/a") firstRecord]
    (∀ d, (faulty.carryOutAll calls).metrics.captureBytes.of d
        = ∑ id ∈ faulty.everHeld calls d, ((faulty.lineage calls d id).lives.map Life.size).sum)
      ∧ (faulty.lineage calls .request ⟨"abcd"⟩).lives = [⟨4, true⟩, ⟨1, false⟩, ⟨3, true⟩]
      ∧ (faulty.carryOutAll calls).metrics.captureBytes = ⟨8, 2⟩
      ∧ (faulty.carryOutAll calls).metrics.spills = ⟨2, 0⟩
      ∧ (faulty.carryOutAll calls).metrics.emergencyPersists = 1
      ∧ (faulty.carryOutAll calls).metrics.archived = 2 := by
  intro calls
  refine ⟨(captures_add_up faulty rfl rfl calls).1 ?_, ?_⟩
  · decide +kernel
  · decide +kernel

end Store

end Wiretap
