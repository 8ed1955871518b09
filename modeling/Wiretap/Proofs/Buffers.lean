/-
  Wiretap.Proofs.Buffers
  ──────────────────────
  **WHAT A BUFFER HOLDS.**

  A buffer holds its bytes in memory, at most as many as the threshold, or as the whole
  content of its spill (`Buffer.Holds`).  Whatever the disk answers, a write keeps it so:

    • `Buffer.write_kept` — a chunk that was written is at the end, and of one that was not a
      prefix may be,
    • `Buffer.Kept.frame` — what a buffer holds outlasts every change to other files.
-/
import Wiretap.Proofs.CaptureFiles

namespace Wiretap

/-! ## §1. Spills. -/

/-- Whether a failure is one of a file, and not one of an identifier. -/
def CaptureFailure.OfFile : CaptureFailure → Prop
  | .unusableId _ => False
  | _ => True

namespace Spill

variable {disk disk' : Disk} {s s' : Spill} {path : Path}

/-- The file behind a spill: it has these bytes, and the next one goes behind them. -/
structure Backed (s : Spill) (disk : Disk) (bytes : Bytes) : Prop where
  find : disk.find s.path = .ok (s.handle.place, .file s.handle.stamp bytes)
  offset : s.offset = bytes.length

theorem append_changesOnly (s : Spill) (disk : Disk) (chunk : Bytes) :
    Disk.ChangesOnly (· = s.handle.place) disk (s.append disk chunk).2.2 :=
  Disk.write_changesOnly disk maxIdleAttempts s.handle s.offset chunk

theorem append_path (s : Spill) (disk : Disk) (chunk : Bytes) :
    (s.append disk chunk).2.1.path = s.path ∧ (s.append disk chunk).2.1.handle = s.handle :=
  ⟨rfl, rfl⟩

/-- A spill that was appended to is backed by a prefix more, also when that failed. -/
theorem append_backed {bytes : Bytes} (h : s.Backed disk bytes) (chunk : Bytes) :
    ∃ landed, landed <+: chunk
      ∧ (s.append disk chunk).2.1.Backed (s.append disk chunk).2.2 (bytes ++ landed)
      ∧ ((s.append disk chunk).1 = .ok () → landed = chunk) := by
  obtain ⟨hloc, hfile, hslash⟩ := Disk.find_eq_file.mp h.find
  have hc := append_changesOnly s disk chunk
  let landing := land maxIdleAttempts disk.responses 0 s.offset chunk
  refine ⟨landing.landed, land_prefix _ _ _ _ _, ⟨?_, ?_⟩, ?_⟩
  · -- the next byte goes behind all others, so the write extends the content
    have hwritten := Disk.file?_write maxIdleAttempts chunk hfile
    rw [← h.offset] at hwritten
    exact Disk.find_eq_file.mpr ⟨Disk.locate_of_changesOnly hc hloc, hwritten, hslash⟩
  · show landing.offset = _
    rw [List.length_append, ← h.offset]
    exact land_offset maxIdleAttempts disk.responses 0 s.offset chunk
  · intro hok
    apply land_complete
    show landing.outcome = .complete
    -- only a landing that is complete passes for a success
    have hcheck : landing.outcome.check s.path landing.offset = .ok () := hok
    unfold LandingEnd.check at hcheck
    split at hcheck
    next hout => exact hout
    next => cases hcheck
    next => cases hcheck

theorem appendAll_changesOnly (s : Spill) (disk : Disk) (parts : List Bytes) :
    Disk.ChangesOnly (· = s.handle.place) disk (s.appendAll disk parts).2.2 := by
  induction parts generalizing s disk with
  | nil => exact .refl disk
  | cons part rest ih =>
      have hc := append_changesOnly s disk part
      have hp := append_path s disk part
      unfold appendAll
      split
      next s₁ disk₁ ha =>
        rw [ha] at hc hp
        have hrest := ih s₁ disk₁
        rw [hp.2] at hrest
        exact hc.trans hrest
      next => exact hc

/-- Parts that were all written stand one behind the other. -/
theorem appendAll_ok {bytes : Bytes} {parts : List Bytes} (h : s.Backed disk bytes)
    (ha : s.appendAll disk parts = (.ok (), s', disk')) :
    s'.Backed disk' (bytes ++ parts.flatten) ∧ s'.path = s.path := by
  induction parts generalizing s disk bytes with
  | nil =>
      cases ha
      simpa using h
  | cons part rest ih =>
      obtain ⟨landed, -, hbacked, hall⟩ := append_backed h part
      have hp := append_path s disk part
      unfold appendAll at ha
      split at ha
      next s₁ disk₁ hpart =>
        rw [hpart] at hbacked hall hp
        obtain ⟨hrest, hpath⟩ := ih hbacked ha
        refine ⟨?_, hpath.trans hp.1⟩
        rw [hall rfl, List.append_assoc] at hrest
        exact hrest
      next hne =>
        rw [ha] at hne
        exact absurd rfl (hne s' disk')

theorem append_error {chunk : Bytes} {failure : CaptureFailure}
    (h : s.append disk chunk = (.error failure, s', disk')) : failure.OfFile := by
  have hcheck : ((disk.write maxIdleAttempts s.handle s.offset chunk).1.outcome.check s.path
      (disk.write maxIdleAttempts s.handle s.offset chunk).1.offset) = .error failure :=
    congrArg Prod.fst h
  unfold LandingEnd.check at hcheck
  split at hcheck <;> cases hcheck <;> trivial

theorem appendAll_error {parts : List Bytes} {failure : CaptureFailure}
    (h : s.appendAll disk parts = (.error failure, s', disk')) : failure.OfFile := by
  induction parts generalizing s disk with
  | nil => cases h
  | cons part rest ih =>
      unfold appendAll at h
      split at h
      next => exact ih h
      next => exact append_error h

theorem create_error {parts : List Bytes} {failure : CaptureFailure}
    (h : create disk path parts = (.error failure, disk')) : failure.OfFile := by
  unfold create at h
  split at h
  next =>
    cases h
    trivial
  next =>
    split at h
    next => cases h
    next hall =>
      cases h
      exact appendAll_error hall

/-- Making a spill changes only the place where its path leads. -/
theorem create_changesOnly (disk : Disk) (hslash : path.endsInSlash = false)
    (parts : List Bytes) :
    Disk.ChangesOnly (fun p => disk.locate path = .ok p) disk (create disk path parts).2 := by
  unfold create
  split
  next fault disk₁ ho => exact Disk.openFile_error ho
  next handle disk₁ ho =>
    obtain ⟨hloc, -, hopen⟩ := Disk.openFile_ok hslash ho
    have hall := hopen.trans (appendAll_changesOnly ⟨handle, path, 0⟩ disk₁ parts)
    have hsub : ∀ p, p = handle.place → disk.locate path = .ok p := by
      rintro p rfl
      exact hloc
    split
    next s₁ disk₂ ha =>
      rw [ha] at hall
      exact hall.mono hsub
    next failure s₁ disk₂ ha =>
      rw [ha] at hall
      -- a spill that could not be filled is removed from the same place
      refine (hall.mono hsub).trans ((Disk.removeFile_changesOnly disk₂ path).mono ?_)
      intro p hp
      rw [Disk.locate_of_changesOnly hall hloc] at hp
      exact hsub p (by simpa using hp.symm)

/-- A spill that was made is backed by its parts. -/
theorem create_ok (hslash : path.endsInSlash = false) {parts : List Bytes}
    (h : create disk path parts = (.ok s, disk')) :
    s.Backed disk' parts.flatten ∧ s.path = path := by
  unfold create at h
  split at h
  next => cases h
  next handle disk₁ ho =>
    obtain ⟨hloc, hfile, hopen⟩ := Disk.openFile_ok hslash ho
    -- the file was emptied when it was opened
    have hempty : Backed ⟨handle, path, 0⟩ disk₁ [] :=
      ⟨Disk.find_eq_file.mpr ⟨Disk.locate_of_changesOnly hopen hloc, hfile, hslash⟩, rfl⟩
    split at h
    next s₁ disk₂ ha =>
      cases h
      exact appendAll_ok hempty ha
    next => cases h

end Spill

/-! ## §2. Buffers. -/

namespace Buffer

variable {disk disk' : Disk} {threshold : Nat} {path : Path}

/-- A buffer holds some bytes: in memory if they are not more than the threshold, else as the
whole content of its spill. -/
def Holds (disk : Disk) (threshold : Nat) (path : Path) (bytes : Bytes) : Buffer → Prop
  | .inMemory held => held = bytes ∧ bytes.length ≤ threshold
  | .onDisk spill => spill.path = path ∧ spill.Backed disk bytes ∧ threshold < bytes.length

/-- The same of an entry of the table, where there is no buffer of no bytes. -/
def Kept (disk : Disk) (threshold : Nat) (path : Path) (bytes : Bytes) : Option Buffer → Prop
  | none => bytes = []
  | some buffer => bytes ≠ [] ∧ buffer.Holds disk threshold path bytes

/-- The place of a spill is where the path of its buffer leads. -/
theorem Holds.locate {bytes : Bytes} {spill : Spill}
    (h : (Buffer.onDisk spill).Holds disk threshold path bytes) :
    disk.locate path = .ok spill.handle.place := by
  obtain ⟨hpath, hbacked, -⟩ := h
  rw [← hpath]
  exact (Disk.find_eq_file.mp hbacked.find).1

theorem create_changesOnly (disk : Disk) (hslash : path.endsInSlash = false) (chunk : Bytes)
    (threshold : Nat) :
    Disk.ChangesOnly (fun p => disk.locate path = .ok p) disk
      (create disk chunk threshold path).2 := by
  have hc := Spill.create_changesOnly disk hslash [chunk]
  unfold create
  split
  next =>
    split
    next hcreate => rwa [hcreate] at hc
    next hcreate => rwa [hcreate] at hc
  next => exact .refl disk

/-- The buffer of a first chunk holds it. -/
theorem create_holds (hslash : path.endsInSlash = false) {chunk : Bytes} {buffer : Buffer}
    {spilled : Bool} (h : create disk chunk threshold path = (.ok (buffer, spilled), disk')) :
    buffer.Holds disk' threshold path chunk := by
  unfold create at h
  split at h
  next hlong =>
    split at h
    next spill disk₁ hcreate =>
      cases h
      obtain ⟨hbacked, hpath⟩ := Spill.create_ok hslash hcreate
      exact ⟨hpath, by simpa using hbacked, hlong⟩
    next => cases h
  next hshort =>
    cases h
    exact ⟨rfl, Nat.le_of_not_lt hshort⟩

theorem append_changesOnly (hslash : path.endsInSlash = false) {buffer : Buffer}
    {bytes : Bytes} (h : buffer.Holds disk threshold path bytes) (chunk : Bytes) :
    Disk.ChangesOnly (fun p => disk.locate path = .ok p) disk
      (buffer.append disk chunk threshold path).2.2 := by
  cases buffer with
  | inMemory held =>
      have hc := Spill.create_changesOnly disk hslash [held, chunk]
      simp only [append]
      split
      next =>
        split
        next hcreate => rwa [hcreate] at hc
        next hcreate => rwa [hcreate] at hc
      next => exact .refl disk
  | onDisk spill =>
      have hc : Disk.ChangesOnly (fun p => disk.locate path = .ok p) disk
          (spill.append disk chunk).2.2 :=
        (Spill.append_changesOnly spill disk chunk).mono (by rintro p rfl; exact h.locate)
      simp only [append]
      split
      next happend => rwa [happend] at hc
      next happend => rwa [happend] at hc

/-- Behind a write stands a prefix of the chunk, and all of it if the write succeeded. -/
theorem append_holds (hslash : path.endsInSlash = false) {buffer : Buffer} {bytes : Bytes}
    (h : buffer.Holds disk threshold path bytes) (chunk : Bytes) :
    ∃ landed, landed <+: chunk
      ∧ (buffer.append disk chunk threshold path).2.1.Holds
          (buffer.append disk chunk threshold path).2.2 threshold path (bytes ++ landed)
      ∧ ((buffer.append disk chunk threshold path).1.isOk = true → landed = chunk) := by
  cases buffer with
  | inMemory held =>
      obtain ⟨rfl, hle⟩ := h
      simp only [append]
      split
      next hlong =>
        split
        next spill disk₁ hcreate =>
          obtain ⟨hbacked, hpath⟩ := Spill.create_ok hslash hcreate
          refine ⟨chunk, List.prefix_rfl, ⟨hpath, by simpa using hbacked, ?_⟩, fun _ => rfl⟩
          rwa [List.length_append]
        next failure disk₁ hcreate =>
          -- the spill is gone, and the bytes are where they were
          exact ⟨[], List.nil_prefix, by simpa [Holds] using hle,
            by simp [Except.isOk, Except.toBool]⟩
      next hshort =>
        refine ⟨chunk, List.prefix_rfl, ⟨rfl, ?_⟩, fun _ => rfl⟩
        rw [List.length_append]
        omega
  | onDisk spill =>
      obtain ⟨hpath, hbacked, hlong⟩ := h
      obtain ⟨landed, hprefix, hafter, hall⟩ := Spill.append_backed hbacked chunk
      have hp := Spill.append_path spill disk chunk
      have hlonger : threshold < (bytes ++ landed).length := by
        rw [List.length_append]
        omega
      simp only [append]
      split
      next spill₁ disk₁ happend =>
        rw [happend] at hafter hall hp
        exact ⟨landed, hprefix, ⟨hp.1.trans hpath, hafter, hlonger⟩, fun _ => hall rfl⟩
      next failure spill₁ disk₁ happend =>
        rw [happend] at hafter hp
        exact ⟨landed, hprefix, ⟨hp.1.trans hpath, hafter, hlonger⟩,
          by simp [Except.isOk, Except.toBool]⟩

theorem write_changesOnly (hslash : path.endsInSlash = false) {held : Option Buffer}
    {bytes : Bytes} (h : Kept disk threshold path bytes held) (chunk : Bytes) :
    Disk.ChangesOnly (fun p => disk.locate path = .ok p) disk
      (write held disk chunk threshold path).2.2 := by
  cases held with
  | none =>
      have hc := create_changesOnly disk hslash chunk threshold
      simp only [write]
      split
      next hcreate => rwa [hcreate] at hc
      next hcreate => rwa [hcreate] at hc
  | some buffer => exact append_changesOnly hslash h.2 chunk

/-- A written entry keeps what it kept, and behind it a prefix of the chunk. -/
theorem write_kept (hslash : path.endsInSlash = false) {held : Option Buffer} {bytes : Bytes}
    (h : Kept disk threshold path bytes held) {chunk : Bytes} (hchunk : chunk ≠ []) :
    ∃ landed, landed <+: chunk
      ∧ Kept (write held disk chunk threshold path).2.2 threshold path (bytes ++ landed)
          (write held disk chunk threshold path).2.1
      ∧ ((write held disk chunk threshold path).1.isOk = true → landed = chunk) := by
  cases held with
  | none =>
      cases h
      simp only [write]
      split
      next buffer spilled disk₁ hcreate =>
        exact ⟨chunk, List.prefix_rfl, ⟨hchunk, create_holds hslash hcreate⟩, fun _ => rfl⟩
      next => exact ⟨[], List.nil_prefix, rfl, by simp [Except.isOk, Except.toBool]⟩
  | some buffer =>
      obtain ⟨landed, hprefix, hholds, hall⟩ := append_holds hslash h.2 chunk
      exact ⟨landed, hprefix, ⟨by simp [h.1], hholds⟩, hall⟩

/-- A write to an entry can only fail for its file. -/
theorem write_error {held : Option Buffer} {chunk : Bytes} {failure : CaptureFailure}
    (h : (write held disk chunk threshold path).1 = .error failure) : failure.OfFile := by
  cases held with
  | none =>
      simp only [write, create] at h
      split at h
      next hcreate => cases h
      next hcreate =>
        cases h
        split at hcreate
        next =>
          split at hcreate
          next => cases hcreate
          next hspill =>
            cases hcreate
            exact Spill.create_error hspill
        next => cases hcreate
  | some buffer =>
      cases buffer with
      | inMemory held =>
          simp only [write, append] at h
          split at h
          next =>
            split at h
            next => cases h
            next hspill =>
              cases h
              exact Spill.create_error hspill
          next => cases h
      | onDisk spill =>
          simp only [write, append] at h
          split at h
          next => cases h
          next happend =>
            cases h
            exact Spill.append_error happend

/-- What is kept is kept through changes elsewhere. -/
theorem Kept.frame {held : Option Buffer} {bytes : Bytes} {touched : Place → Prop}
    (h : Kept disk threshold path bytes held) (hc : Disk.ChangesOnly touched disk disk')
    (haway : ∀ p, disk.locate path = .ok p → ¬ touched p) :
    Kept disk' threshold path bytes held := by
  cases held with
  | none => exact h
  | some buffer =>
      refine ⟨h.1, ?_⟩
      cases buffer with
      | inMemory held => exact h.2
      | onDisk spill =>
          -- the spill stands where its path leads, and nothing changed there
          have hplace := haway _ h.2.locate
          obtain ⟨hpath, hbacked, hlong⟩ := h.2
          exact ⟨hpath, ⟨Disk.find_of_changesOnly hc hbacked.find hplace, hbacked.offset⟩, hlong⟩

end Buffer

end Wiretap
