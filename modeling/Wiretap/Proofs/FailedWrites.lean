/-
  Wiretap.Proofs.FailedWrites
  ───────────────────────────
  **WHAT A FAILED WRITE LEAVES BEHIND.**

  A chunk that cannot be written is no part of the buffer afterwards, as long as none of it
  got to the disk.  A buffer in memory stays as it is when its spill cannot be made, and a
  key without a buffer stays without one.  A spill keeps what landed before the file refused:
  it is that much longer, and so is what can be read.

    • `Disk.find_write_of_landed_nil` — a write of which nothing landed changes nothing,
    • `Buffer.append_error_cases`     — the ways in which an append fails,
    • `failed_write_unchanged_iff`    — a failed write is undone just when nothing landed.
-/
import Mathlib.Control.Monad.Basic
import Wiretap.Proofs.Calls

namespace Wiretap

/-! ## §1. Writes of which nothing landed. -/

/-- Attempts with which nothing landed leave a content as it is. -/
theorem contentAfter_of_landed_nil (content : Bytes) {attempts : List Attempt}
    (hnil : attempts.flatMap (·.landed) = []) : Disk.contentAfter content attempts = content := by
  induction attempts with
  | nil => rfl
  | cons a rest ih =>
      rw [List.flatMap_cons, List.append_eq_nil_iff] at hnil
      obtain ⟨hland, hnone⟩ := hnil
      show Disk.contentAfter (content.overwrite a.offset a.landed) rest = content
      rw [hland, Bytes.overwrite_nil]
      exact ih hnone

namespace Disk

variable {d : Disk}

/-- Putting an entry where it stands changes nothing. -/
theorem put_self {place : Place} {stamp : Nat} {content : Bytes}
    (h : d.file? place = some (stamp, content)) : d.put place (.file stamp content) = d := by
  have hentry : d.entries[place]? = some (.file stamp content) := by
    have hfile := file?_eq_some.mp h
    rwa [ entry?, if_neg (place_ne_nil_of_file? h)] at hfile
  have hsame : d.entries.insert place (.file stamp content) = d.entries := by
    apply Std.ExtTreeMap.ext_getElem?
    intro p
    rw [Std.ExtTreeMap.getElem?_insert]
    split
    next hp => rw [← Std.LawfulEqCmp.eq_of_compare hp, hentry]
    next => rfl
  unfold put
  rw [hsame]

theorem walk_responses (responses : List Response) (here : Place) (steps : List String) :
    walk { d with responses } here steps = d.walk here steps := by
  induction steps generalizing here with
  | nil => rfl
  | cons step rest ih =>
      simp only [walk, ih]
      rfl

/-- Where a path leads does not depend on what the disk will answer. -/
theorem find_responses (responses : List Response) (path : Path) :
    find { d with responses } path = d.find path := by
  unfold find locate
  simp only [walk_responses]
  rfl

/-- A write of which nothing landed leaves everything where it was found. -/
theorem find_write_of_landed_nil {limit : Nat} {handle : Handle} {offset : Nat} {data : Bytes}
    (hnil : (d.write limit handle offset data).1.landed = []) (path : Path) :
    (d.write limit handle offset data).2.find path = d.find path := by
  have hland : (land limit d.responses 0 offset data).attempts.flatMap (·.landed) = [] := hnil
  have hsame : d.apply handle (land limit d.responses 0 offset data).attempts = d := by
    unfold apply
    split
    next content hc =>
      rw [contentAfter_of_landed_nil content hland]
      exact put_self (contentOf_eq_some.mp hc)
    next => rfl
  show find { d.apply handle (land limit d.responses 0 offset data).attempts with
    responses := _ } path = _
  rw [hsame]
  exact find_responses _ path

end Disk

/-! ## §2. Buffers. -/

namespace Buffer

variable {disk disk' : Disk} {b b' : Buffer} {chunk : Bytes} {threshold : Nat} {path : Path}
variable {failure : CaptureFailure}

/-- What is seen of a buffer: where its bytes are, how many there are, and what can be read. -/
def view (disk : Disk) (b : Buffer) : BufferMode × Nat × Except Fault Bytes :=
  (b.mode, b.size, (Store.bodyOf .identity b).raw disk)

/-- What of a chunk gets to the spill of a buffer, if it has one, when the chunk is written. -/
def landed (disk : Disk) (chunk : Bytes) : Buffer → Bytes
  | .inMemory _ => []
  | .onDisk spill => (disk.write maxIdleAttempts spill.handle spill.offset chunk).1.landed

/-- An append fails with the spill that it would make, and then the buffer is what it was, or
with the spill that is there. -/
theorem append_error_cases (h : b.append disk chunk threshold path = (.error failure, b', disk')) :
    (∃ bytes, b = .inMemory bytes ∧ b' = b)
      ∨ ∃ spill, b = .onDisk spill ∧ b' = .onDisk (spill.append disk chunk).2.1
        ∧ disk' = (spill.append disk chunk).2.2 := by
  cases b with
  | inMemory bytes =>
      simp only [append] at h
      split at h
      next =>
        split at h
        next => cases h
        next =>
          cases h
          exact Or.inl ⟨bytes, rfl, rfl⟩
      next => cases h
  | onDisk spill =>
      simp only [append] at h
      split at h
      next => cases h
      next hfailed =>
        cases h
        exact Or.inr ⟨spill, rfl, by rw [hfailed], by rw [hfailed]⟩

/-- A buffer that could not be appended to is where it was, and longer by what landed. -/
theorem append_error_size (h : b.append disk chunk threshold path = (.error failure, b', disk')) :
    b'.mode = b.mode ∧ b'.size = b.size + (b.landed disk chunk).length := by
  rcases append_error_cases h with ⟨bytes, rfl, rfl⟩ | ⟨spill, rfl, rfl, -⟩
  · exact ⟨rfl, rfl⟩
  · exact ⟨rfl, land_offset maxIdleAttempts disk.responses 0 spill.offset chunk⟩

/-- A buffer that could not be appended to looks as before just when nothing landed. -/
theorem append_error_view_iff
    (h : b.append disk chunk threshold path = (.error failure, b', disk')) :
    b'.view disk' = b.view disk ↔ b.landed disk chunk = [] := by
  obtain ⟨hmode, hsize⟩ := append_error_size h
  constructor
  · intro hsame
    -- it has as many bytes as before, so none came
    have hcount : b'.size = b.size := congrArg (·.2.1) hsame
    exact List.length_eq_zero_iff.mp (by omega)
  · intro hnil
    rw [hnil, List.length_nil, Nat.add_zero] at hsize
    unfold view
    rw [hmode, hsize]
    rcases append_error_cases h with ⟨bytes, rfl, rfl⟩ | ⟨spill, rfl, rfl, rfl⟩
    · rfl
    · -- the file is as it was, and it is read as far as before
      have hfind := Disk.find_write_of_landed_nil hnil spill.path
      have hoffset : (spill.append disk chunk).2.1.offset = spill.offset := hsize
      show (_, _, (spill.append disk chunk).2.2.readUpTo spill.path
        (spill.append disk chunk).2.1.offset) = (_, _, disk.readUpTo spill.path spill.offset)
      rw [hoffset]
      unfold Disk.readUpTo
      rw [show (spill.append disk chunk).2.2.find spill.path = disk.find spill.path from hfind]

/-- A first chunk that cannot be written makes no buffer. -/
theorem write_none_error (h : (write none disk chunk threshold path).1 = .error failure) :
    (write none disk chunk threshold path).2.1 = none := by
  simp only [write] at h ⊢
  split
  next hcreate =>
    rw [hcreate] at h
    cases h
  next => rfl

end Buffer

/-! ## §3. Keys. -/

namespace Store

variable {s s' : Store} {d : Direction} {id : ExchangeId} {chunk : Bytes}
variable {failure : CaptureFailure}

/-- What is seen of the buffer under a key. -/
def view (s : Store) (d : Direction) (id : ExchangeId) :
    Option (BufferMode × Nat × Except Fault Bytes) :=
  (s.repository.buffer? d id).map (Buffer.view s.disk)

/-- What of a chunk gets to the spill under a key when the chunk is written. -/
def landed (s : Store) (d : Direction) (id : ExchangeId) (chunk : Bytes) : Bytes :=
  ((s.repository.buffer? d id).map (Buffer.landed s.disk chunk)).getD []

/-- A write that fails leaves a key without a buffer as it is, and it fails for a buffer as the
append does. -/
theorem write_error_cases (h : s.write d id chunk = (.error failure, s')) :
    (s.repository.buffer? d id = none ∧ s'.repository.buffer? d id = none)
      ∨ ∃ b b', s.repository.buffer? d id = some b ∧ s'.repository.buffer? d id = some b'
        ∧ b.append s.disk chunk s.repository.threshold (s.repository.bufferPath d id)
            = (.error failure, b', s'.disk) := by
  rcases s.write_cases d id chunk with ⟨-, hw⟩ | ⟨-, -, hnone, -, hw⟩ | ⟨-, -, -, hout, hdisk, hrepo⟩
  · rw [hw] at h
    cases h
  · rw [hw] at h
    cases h
    exact Or.inl ⟨hnone, hnone⟩
  · rw [h] at hout hdisk hrepo
    dsimp only at hout hdisk hrepo
    have herror : (s.entryWrite d id chunk).1 = .error failure := by
      cases hentry : (s.entryWrite d id chunk).1 with
      | ok spilled =>
          rw [hentry] at hout
          cases hout
      | error other =>
          rw [hentry] at hout
          cases hout
          rfl
    have hafter : s'.repository.buffer? d id
        = (s.entryWrite d id chunk).2.1.or (s.repository.buffer? d id) := by
      rw [hrepo, Repository.buffer?_hold, if_pos ⟨rfl, rfl⟩]
    unfold entryWrite at herror hafter hdisk
    cases hb : s.repository.buffer? d id with
    | none =>
        rw [hb] at herror hafter
        refine Or.inl ⟨rfl, ?_⟩
        rw [hafter, Buffer.write_none_error herror]
        rfl
    | some b =>
        rw [hb] at herror hafter hdisk
        exact Or.inr ⟨b, _, rfl, hafter, Prod.ext herror (Prod.ext rfl hdisk.symm)⟩

/-- A key whose buffer could not be written to looks as before just when nothing landed. -/
theorem write_error_view_iff (h : s.write d id chunk = (.error failure, s')) :
    s'.view d id = s.view d id ↔ s.landed d id chunk = [] := by
  unfold view landed
  rcases write_error_cases h with ⟨hbefore, hafter⟩ | ⟨b, b', hbefore, hafter, happend⟩
  · rw [hbefore, hafter]
    exact iff_of_true rfl rfl
  · rw [hbefore, hafter]
    show some _ = some _ ↔ b.landed s.disk chunk = []
    rw [Option.some_inj]
    exact Buffer.append_error_view_iff happend

/-- A write that fails moves no buffer, makes none and lets go of none. -/
theorem write_error_mode (h : s.write d id chunk = (.error failure, s')) :
    (s'.repository.buffer? d id).map Buffer.mode = (s.repository.buffer? d id).map Buffer.mode := by
  rcases write_error_cases h with ⟨hbefore, hafter⟩ | ⟨b, b', hbefore, hafter, happend⟩
  · rw [hbefore, hafter]
  · rw [hbefore, hafter]
    exact congrArg some (Buffer.append_error_size happend).1

/-! ## §4. Failed writes. -/

/-- **A failed write is undone unless some of it landed.**  Whatever the file answers, a chunk
that cannot be appended to a buffer, or written under a key, leaves mode, size and readable
bytes as they were just when none of it got to the spill.  In any case the buffer stays in
memory or on disk, a key without a buffer stays without one, and a spill is longer by what
landed. -/
theorem failed_write_unchanged_iff (b : Buffer) (disk : Disk) (s : Store) (d : Direction)
    (id : ExchangeId) (chunk : Bytes) (threshold : Nat) (path : Path) :
    (∀ failure b' disk', b.append disk chunk threshold path = (.error failure, b', disk') →
      (b'.view disk' = b.view disk ↔ b.landed disk chunk = [])
        ∧ b'.mode = b.mode ∧ b'.size = b.size + (b.landed disk chunk).length)
    ∧ ∀ failure s', s.write d id chunk = (.error failure, s') →
      (s'.view d id = s.view d id ↔ s.landed d id chunk = [])
        ∧ (s'.repository.buffer? d id).map Buffer.mode
          = (s.repository.buffer? d id).map Buffer.mode := by
  constructor
  · intro failure b' disk' h
    exact ⟨Buffer.append_error_view_iff h, Buffer.append_error_size h⟩
  · intro failure s' h
    exact ⟨write_error_view_iff h, write_error_mode h⟩

/-- A disk with one directory that grants the making of a spill, and then answers as given. -/
def spilling (answers : List Response) : Store :=
  ⟨{ Disk.ofDirectories [["b"]] [] with responses := .comply :: .comply :: answers },
    ⟨true, .ofText "/b", 2, .both ∅⟩, .zero⟩

/-- The same of a spill that takes nothing of a chunk. -/
theorem failed_write_unchanged_of_refused :
    let s := ((spilling [.short 0, .refuse .storageFull]).write .request ⟨"x"⟩ [1, 2, 3]).2
    ∃ failure s', s.write .request ⟨"x"⟩ [4, 5] = (.error failure, s')
      ∧ s.view .request ⟨"x"⟩ = some (.onDisk, 3, .ok [1, 2, 3])
      ∧ s'.view .request ⟨"x"⟩ = s.view .request ⟨"x"⟩ := by
  intro s
  have hfailed : (s.write .request ⟨"x"⟩ [4, 5]).1
      = .error (.disk ((Path.ofText "/b").join "x_request.raw") .storageFull) := by decide +kernel
  obtain ⟨-, hstore⟩ := failed_write_unchanged_iff (.inMemory []) s.disk s .request ⟨"x"⟩ [4, 5] 0
    (Path.ofText "")
  refine ⟨_, _, Prod.ext hfailed rfl, by decide +kernel, ?_⟩
  exact (hstore _ _ (Prod.ext hfailed rfl)).1.mpr (by decide +kernel)

/-- A spill that takes the first byte of a chunk and then refuses has one byte more. -/
theorem failed_write_grows_spill :
    let s := ((spilling [.short 1, .refuse .storageFull]).write .request ⟨"x"⟩ [1, 2, 3]).2
    (s.write .request ⟨"x"⟩ [4, 5]).1
        = .error (.disk ((Path.ofText "/b").join "x_request.raw") .storageFull)
      ∧ s.view .request ⟨"x"⟩ = some (.onDisk, 3, .ok [1, 2, 3])
      ∧ (s.write .request ⟨"x"⟩ [4, 5]).2.view .request ⟨"x"⟩
          = some (.onDisk, 4, .ok [1, 2, 3, 4]) := by
  decide +kernel

end Store

end Wiretap
