/-
  Wiretap.Proofs.Remains
  ──────────────────────
  **WHERE THE BYTES ARE AFTERWARDS.**

  What is left of a buffer depends on how it was let go of, while the disk does what it is
  asked:

    • cleaned up, its spill is gone (`cleanup_spillGone`),
    • saved, its bytes are in the emergency file or still in the spill (`persist_saved`),
    • archived, its bytes stand behind the preamble in its artifact, and its spill is gone
      (`archiveInto_archived`).
-/
import Wiretap.Proofs.ArchiveFiles

namespace Wiretap.Store

variable {s s' s'' : Store} {d d' : Direction} {id id' : ExchangeId} {bytes : Bytes}
variable {keys : Direction → ExchangeId → Prop} {files : Place → Prop}

/-! ## §1. What a buffer holds. -/

/-- The bytes that can be read from the buffer of a key. -/
def held (s : Store) (d : Direction) (id : ExchangeId) : Option Bytes :=
  (s.repository.buffer? d id).bind fun buffer =>
    ((bodyOf .identity buffer).raw s.disk).toOption

/-- The spill of a kept entry is found at its path, with the bytes that are kept. -/
theorem Keeps.find (h : s.Keeps d id bytes) {spill : Spill}
    (hb : s.repository.buffer? d id = some (.onDisk spill)) :
    spill.path = s.repository.bufferPath d id
      ∧ s.disk.find (s.repository.bufferPath d id)
          = .ok (spill.handle.place, .file spill.handle.stamp bytes) := by
  obtain ⟨hpath, hbacked, -⟩ := h.holds hb
  refine ⟨hpath, ?_⟩
  rw [← hpath]
  exact hbacked.find

/-- The bytes that are kept are those that can be read. -/
theorem Keeps.held (h : s.Keeps d id bytes) :
    s.held d id = if bytes = [] then none else some bytes := by
  have hkept := h.kept
  unfold Store.held
  cases hb : s.repository.buffer? d id with
  | none =>
      rw [hb] at hkept
      exact (if_pos hkept).symm
  | some buffer =>
      rw [hb] at hkept
      obtain ⟨hne, hholds⟩ := hkept
      rw [if_neg hne]
      cases buffer with
      | inMemory held => exact congrArg some hholds.1
      | onDisk spill =>
          obtain ⟨-, hbacked, -⟩ := hholds
          -- the spill is read as far as its offset, and that is all of it
          show ((s.disk.readUpTo spill.path spill.offset).toOption) = _
          simp [Disk.readUpTo, hbacked.find, hbacked.offset, bind, Except.bind, Except.toOption]

theorem Keeps.eq_of_held (h : s.Keeps d id bytes) {found : Bytes}
    (hheld : s.held d id = some found) : bytes = found ∧ bytes ≠ [] := by
  rw [h.held] at hheld
  split at hheld
  next => cases hheld
  next hne =>
    cases hheld
    exact ⟨rfl, hne⟩

/-! ## §2. Spills that are gone. -/

/-- From one store to a later one, the spill of a key is gone if it had one, and no file has
come under the name of its spill. -/
structure SpillGone (s s' : Store) (d : Direction) (id : ExchangeId) : Prop where
  gone : ∀ spill, s.repository.buffer? d id = some (.onDisk spill) →
    s'.disk.file? spill.handle.place = none
  old : ∀ p, EndsIn (Repository.spillName d id) p → s'.disk.file? p ≠ none →
    s'.disk.file? p = s.disk.file? p

/-- A change that spares the spill of a key, before its spill is gone or after. -/
theorem SpillGone.after (h : SpillGone s s' d id) (hk : s.Keeps d id bytes)
    (hc : ChangesOnly keys files s' s'')
    (haway : ∀ p, EndsIn (Repository.spillName d id) p → ¬ files p) : SpillGone s s'' d id := by
  refine ⟨fun spill hb => ?_, fun p hp hne => ?_⟩
  · obtain ⟨hpath, hfind⟩ := hk.find hb
    obtain ⟨hloc, -, -⟩ := Disk.find_eq_file.mp hfind
    rw [← hpath] at hloc
    rw [hc.disk.file? _ (haway _ (hk.endsIn_spill hb hloc))]
    exact h.gone spill hb
  · rw [hc.disk.file? p (haway p hp)] at hne ⊢
    exact h.old p hp hne

theorem SpillGone.before (h : SpillGone s' s'' d id) (hc : ChangesOnly keys files s s')
    (hkey : ¬ keys d id) (haway : ∀ p, EndsIn (Repository.spillName d id) p → ¬ files p) :
    SpillGone s s'' d id := by
  refine ⟨fun spill hb => ?_, fun p hp hne => ?_⟩
  · rw [← hc.buffer? d id hkey] at hb
    exact h.gone spill hb
  · rw [← hc.disk.file? p (haway p hp)]
    exact h.old p hp hne

/-- Where a spill is gone, nothing can be read. -/
theorem SpillGone.read (h : SpillGone s s' d id) (hk : s.Keeps d id bytes)
    (hc : ChangesOnly keys files s s') {spill : Spill}
    (hb : s.repository.buffer? d id = some (.onDisk spill)) (content : Bytes) :
    s'.disk.read (s.repository.bufferPath d id) ≠ .ok content := by
  intro hread
  obtain ⟨-, hfind⟩ := hk.find hb
  obtain ⟨hloc, -, -⟩ := Disk.find_eq_file.mp hfind
  obtain ⟨place, stamp, hfound⟩ := Disk.read_eq_ok.mp hread
  obtain ⟨hloc', hfile, -⟩ := Disk.find_eq_file.mp hfound
  -- the path leads where it led, and there is no file any more
  rw [Disk.locate_of_changesOnly hc.disk hloc] at hloc'
  cases hloc'
  rw [h.gone spill hb] at hfile
  cases hfile

/-- Where no buffer has a spill, none is there to go. -/
theorem spillGone_of_disk (hb : ∀ spill, s.repository.buffer? d id ≠ some (.onDisk spill))
    (hfiles : ∀ p, EndsIn (Repository.spillName d id) p → s'.disk.file? p = s.disk.file? p) :
    SpillGone s s' d id :=
  ⟨fun spill h => absurd h (hb spill), fun p hp _ => hfiles p hp⟩

/-- A spill is gone once it was removed and its place is where its key leads. -/
theorem Keeps.spillGone (h : s.Keeps d id bytes) {spill : Spill} {disk disk' : Disk}
    (hb : s.repository.buffer? d id = some (.onDisk spill))
    (hc : Disk.ChangesOnly files s.disk disk)
    (haway : ∀ p, EndsIn (Repository.spillName d id) p → ¬ files p)
    (hremove : disk.removeFile spill.path = (.ok (), disk')) (hs : s'.disk = disk') :
    SpillGone s s' d id := by
  obtain ⟨hpath, hfind⟩ := h.find hb
  rw [← hpath] at hfind
  obtain ⟨hloc, -, -⟩ := Disk.find_eq_file.mp hfind
  have hloc' := Disk.locate_of_changesOnly hc hloc
  obtain ⟨place, hplace, hgone⟩ := Disk.removeFile_ok hremove
  -- what was removed stood where the spill does
  obtain rfl : spill.handle.place = place := by
    rw [hloc'] at hplace
    exact Except.ok.inj hplace
  have hremoved := disk.removeFile_changesOnly spill.path
  rw [hremove] at hremoved
  refine ⟨fun other hother => ?_, fun p hp hne => ?_⟩
  · rw [hb] at hother
    cases hother
    rw [hs]
    exact hgone
  · rw [hs] at hne ⊢
    rw [hremoved.file? p fun hp' => ?_, hc.file? p (haway p hp)]
    rw [hloc'] at hp'
    cases hp'
    exact hne hgone

/-! ## §3. Cleaning up. -/

/-- The spills of both directions. -/
theorem spillGone_both {s₁ s₂ : Store} {filesOf : Direction → Place → Prop}
    (h : ∃ bytes, s.Keeps .request id bytes)
    (h₁ : ChangesOnly (Key .request id) (filesOf .request) s s₁)
    (h₂ : ChangesOnly (Key .response id) (filesOf .response) s₁ s₂)
    (hfiles : ∀ d, SpillsOf (Key d id) (filesOf d))
    (hgone₁ : SpillGone s s₁ .request id) (hgone₂ : SpillGone s₁ s₂ .response id)
    (d : Direction) : SpillGone s s₂ d id := by
  obtain ⟨bytes, hk⟩ := h
  cases d with
  | request =>
      -- the second direction has no file of the name of the first spill
      refine hgone₁.after hk h₂ fun p hp hf => ?_
      cases (hfiles .response .request id p hp hf).1
  | response =>
      -- and the first direction had none of the name of the second
      refine hgone₂.before h₁ (fun hkey => by cases hkey.1) fun p hp hf => ?_
      cases (hfiles .request .response id p hp hf).1

/-- On a disk, the bytes of a buffer are in a file: those of a buffer in memory in the
emergency file of its key, those of one on disk in its spill. -/
def Saved (disk : Disk) (r : Repository) (d : Direction) (id : ExchangeId) (bytes : Bytes) :
    Prop :=
  match r.buffer? d id with
  | none => True
  | some (.inMemory _) => disk.read (r.emergencyPath d id) = .ok bytes
  | some (.onDisk _) => disk.read (r.bufferPath d id) = .ok bytes

/-- What is saved stays so through changes to other files. -/
theorem Saved.frame {disk disk' : Disk} {r : Repository} (h : Saved disk r d id bytes)
    (hsafe : r.buffer? d id ≠ none → id.isPathSafe = true)
    (hc : Disk.ChangesOnly files disk disk')
    (hspill : ∀ p, EndsIn (Repository.spillName d id) p → ¬ files p)
    (hemergency : ∀ p, EndsIn (Repository.emergencyName d id) p → ¬ files p) :
    Saved disk' r d id bytes := by
  unfold Saved at h ⊢
  split
  next => trivial
  next hb =>
    rw [hb] at h
    obtain ⟨place, stamp, hfind⟩ := Disk.read_eq_ok.mp h
    have hends := endsIn_of_locate_emergencyPath (hsafe (by simp [hb]))
      (Disk.find_eq_file.mp hfind).1
    exact Disk.read_eq_ok.mpr ⟨place, stamp,
      Disk.find_of_changesOnly hc hfind (hemergency place hends)⟩
  next hb =>
    rw [hb] at h
    obtain ⟨place, stamp, hfind⟩ := Disk.read_eq_ok.mp h
    have hends := endsIn_of_locate_bufferPath (hsafe (by simp [hb]))
      (Disk.find_eq_file.mp hfind).1
    exact Disk.read_eq_ok.mpr ⟨place, stamp,
      Disk.find_of_changesOnly hc hfind (hspill place hends)⟩

/-- The store in which a direction is saved when its exchange is; the request comes first. -/
def beforeSaving (s : Store) (id : ExchangeId) : Direction → Store
  | .request => s
  | .response => s.persistDirection id .request

/-- Where the buffer of a key is in memory, the file it is saved in can be written. -/
def SaveSucceeds (s : Store) (d : Direction) (id : ExchangeId) : Prop :=
  ∀ bytes, s.repository.buffer? d id = some (.inMemory bytes) →
    (s.disk.writeFile (s.repository.emergencyPath d id) bytes).1 = .ok ()

/-- A direction that is saved is in a file. -/
theorem persistDirection_saved (h : s.Keeps d id bytes) (hsave : s.SaveSucceeds d id) :
    Saved (s.persistDirection id d).disk s.repository d id bytes := by
  unfold Saved persistDirection
  cases hb : s.repository.buffer? d id with
  | none => trivial
  | some buffer =>
      cases buffer with
      | onDisk spill =>
          -- a buffer on disk is let go of, and its spill stays
          obtain ⟨-, hfind⟩ := h.find hb
          exact Disk.read_eq_ok.mpr ⟨_, _, hfind⟩
      | inMemory held =>
          have hsafe : id.isPathSafe = true := h.isPathSafe (by simp [hb])
          -- a buffer in memory is written to the file of its key
          have hslash := endsInSlash_emergencyPath s.repository hsafe d
          obtain ⟨rfl, -⟩ := h.holds hb
          have hwrite : s.disk.writeFile (s.repository.emergencyPath d id) held
              = (.ok (), (s.disk.writeFile (s.repository.emergencyPath d id) held).2) :=
            Prod.ext (hsave held hb) rfl
          have hsame : (s.repository.release d id).emergencyPath d id
              = s.repository.emergencyPath d id := rfl
          simp only [hsame]
          rw [hwrite]
          exact Disk.read_eq_ok.mpr (Disk.writeFile_ok hslash hwrite)

/-- A direction of an exchange that is saved is in a file, whatever becomes of the other. -/
theorem persist_saved_of_written (h : s.Sound) (hk : s.Keeps d id bytes)
    (hsave : (s.beforeSaving id d).SaveSucceeds d id) :
    Saved (s.persist id).disk s.repository d id bytes := by
  obtain ⟨_, hreq⟩ := h .request id
  have hc := persistDirection_changesOnly hreq
  cases d with
  | request =>
      obtain ⟨_, hres⟩ := persistDirection_sound h id .request .response id
      have hsafe : s.repository.buffer? .request id ≠ none → id.isPathSafe = true :=
        fun hne => hk.isPathSafe fun hnone => absurd hnone hne
      refine (persistDirection_saved hk hsave).frame hsafe
        (persistDirection_changesOnly hres).disk ?_ ?_
      · intro p hp hf
        exact Repository.spillName_ne_emergencyName _ _ _ _ (hp.unique hf)
      · intro p hp hf
        cases (Repository.emergencyName_inj (hp.unique hf)).1
  | response =>
      -- the first direction is saved in a file of its own, and the second stays as it is
      have hk₁ := hk.away (spillsOf_emergency .request id) hc fun hkey => by cases hkey.1
      have hbuffer := hc.buffer? .response id fun hkey => by cases hkey.1
      have hsaved := persistDirection_saved hk₁ hsave
      unfold Saved at hsaved ⊢
      simp only [Repository.emergencyPath, Repository.bufferPath, hc.directory, hbuffer]
        at hsaved ⊢
      exact hsaved

/-- Where the buffer of a key in memory is to be saved, a file can be made. -/
def CanSave (s : Store) (d : Direction) (id : ExchangeId) : Prop :=
  ∀ bytes, s.repository.buffer? d id = some (.inMemory bytes) →
    s.disk.Admits (s.repository.emergencyPath d id)

/-- The bytes of a buffer are copied behind what stands in an open file. -/
theorem copyBuffer_ok {disk disk' : Disk} {path buffered : Path} {handle : Handle}
    {content : Bytes} {threshold : Nat} {buffer : Buffer}
    (hfile : disk.file? handle.place = some (handle.stamp, content))
    (hholds : buffer.Holds disk threshold buffered bytes)
    (h : copyBuffer disk path handle content.length buffer = (.ok (), disk')) :
    disk'.file? handle.place = some (handle.stamp, content ++ bytes) := by
  cases buffer with
  | inMemory held =>
      obtain ⟨rfl, -⟩ := hholds
      simp only [copyBuffer] at h
      split at h
      next hwrite =>
        cases h
        have hdata := Disk.writeAll_ok content hfile (congrArg Prod.fst hwrite)
        rwa [hwrite] at hdata
      next => cases h
  | onDisk spill =>
      obtain ⟨-, hbacked, -⟩ := hholds
      have hask := Disk.ask_changesOnly (fun _ => False) disk
      simp only [copyBuffer] at h
      split at h
      next => cases h
      next disk₁ ha =>
        rw [ha] at hask
        -- the answer of the disk leaves the spill and the artifact alone
        have hfile₁ : disk₁.file? handle.place = some (handle.stamp, content) :=
          (hask.file? _ not_false).trans hfile
        rw [Disk.find_of_changesOnly hask hbacked.find not_false] at h
        dsimp only at h
        split at h
        next hwrite =>
          cases h
          have hdata := Disk.writeAll_ok content hfile₁ (congrArg Prod.fst hwrite)
          rwa [hwrite] at hdata
        next => cases h

/-- An artifact that was written is the preamble and the bytes of its buffer. -/
theorem writeArtifact_ok {disk disk' : Disk} {path buffered : Path} {preamble : Bytes}
    {threshold : Nat} {buffer : Buffer} (hslash : path.endsInSlash = false)
    (hkept : Buffer.Kept disk threshold buffered bytes (some buffer))
    (haway : ∀ p, disk.locate path = .ok p → ¬ disk.locate buffered = .ok p)
    (h : writeArtifact disk path preamble (some buffer) = (.ok (), disk')) :
    ∃ place stamp, disk'.find path = .ok (place, .file stamp (preamble ++ bytes)) := by
  have hwhole := writeArtifact_changesOnly disk hslash preamble (some buffer)
  rw [h] at hwhole
  unfold writeArtifact at h
  split at h
  next => cases h
  next handle disk₁ hopen =>
    obtain ⟨hloc, hempty, hc₁⟩ := Disk.openFile_ok hslash hopen
    split at h
    next => cases h
    next disk₂ hwrite =>
      have hc₂ := Disk.writeAll_changesOnly disk₁ handle 0 preamble
      -- the file was emptied, and then the preamble was written to it
      have hfile := Disk.writeAll_ok [] (by simpa using hempty) (congrArg Prod.fst hwrite)
      rw [List.length_nil, hwrite, List.nil_append] at hfile
      rw [hwrite] at hc₂
      -- the buffer still holds its bytes, since the artifact is elsewhere
      have hstill : Buffer.Kept disk₂ threshold buffered bytes (some buffer) := by
        refine hkept.frame (hc₁.trans hc₂) fun p hp heq => ?_
        subst heq
        exact haway _ hloc hp
      exact ⟨handle.place, handle.stamp, Disk.find_eq_file.mpr
        ⟨Disk.locate_of_changesOnly hwhole hloc, copyBuffer_ok hfile hstill.2 h, hslash⟩⟩

/-- An artifact holds a preamble and some bytes. -/
def Archived (disk : Disk) (target : Path) (d : Direction) (content : Bytes) : Prop :=
  disk.read (target.join (artifactName d)) = .ok content

theorem Archived.frame {disk disk' : Disk} {target : Path} {content : Bytes}
    (h : Archived disk target d content) (hc : Disk.ChangesOnly files disk disk')
    (haway : ∀ p, EndsIn (artifactName d) p → ¬ files p) : Archived disk' target d content := by
  obtain ⟨place, stamp, hfind⟩ := Disk.read_eq_ok.mp h
  have hends : EndsIn (artifactName d) place :=
    endsIn_of_artifactPlace ⟨disk, (Disk.find_eq_file.mp hfind).1⟩
  exact Disk.read_eq_ok.mpr ⟨place, stamp, Disk.find_of_changesOnly hc hfind (haway place hends)⟩

theorem not_endsIn_of_artifact {target : Path} {disk : Disk} {place : Place}
    (h : disk.locate (target.join (artifactName d)) = .ok place) (d' : Direction)
    (id : ExchangeId) : ¬ EndsIn (Repository.spillName d' id) place := fun hends =>
  Repository.artifactName_ne_spillName d d' id
    ((endsIn_of_artifactPlace ⟨disk, h⟩).unique hends)

/-- The artifact of a direction is not among the files of another. -/
theorem not_archiveFile_of_endsIn {target : Path} {place : Place} (hd : d ≠ d')
    (h : EndsIn (artifactName d) place) : ¬ ArchiveFile id target d' place := by
  rintro (hart | hspill)
  · have hname := (endsIn_of_artifactPlace hart).unique h
    revert hd hname
    cases d <;> cases d' <;> decide
  · exact Repository.artifactName_ne_spillName _ _ _ (h.unique hspill)

/-- Once the artifact of a buffer was written, it holds the preamble and the bytes. -/
theorem writeArtifact_archived (h : s.Keeps d id bytes) {buffer : Buffer} {target : Path}
    {preamble : Bytes} {disk : Disk} (hb : s.repository.buffer? d id = some buffer)
    (hw : writeArtifact s.disk (target.join (artifactName d)) preamble (some buffer)
      = (.ok (), disk)) : Archived disk target d (preamble ++ bytes) := by
  have hsafe : id.isPathSafe = true := h.isPathSafe (by simp [hb])
  have hkept := h.kept
  rw [hb] at hkept
  -- the artifact is no spill, so the bytes were still there when they were copied
  refine Disk.read_eq_ok.mpr (writeArtifact_ok (endsInSlash_artifact target d) hkept
    (fun p hp hspill => ?_) hw)
  exact not_endsIn_of_artifact hp d id (endsIn_of_locate_bufferPath hsafe hspill)

/-- What was done to the disk when a direction with a buffer was archived. -/
theorem archiveDirection_ok {target artifact : Path} {preamble : Bytes} {buffer : Buffer}
    (hb : s.repository.buffer? d id = some buffer)
    (hok : (s.archiveDirection id target preamble d).1 = .ok artifact) :
    ∃ disk, writeArtifact s.disk (target.join (artifactName d)) preamble (some buffer)
        = (.ok (), disk)
      ∧ match buffer with
        | .inMemory _ => (s.archiveDirection id target preamble d).2.disk = disk
        | .onDisk spill => disk.removeFile spill.path
            = (.ok (), (s.archiveDirection id target preamble d).2.disk) := by
  unfold archiveDirection at hok ⊢
  simp only [hb, Option.isNone_some, Bool.false_and, Bool.false_eq_true, if_false] at hok ⊢
  split at hok
  next => cases hok
  next disk hw =>
    refine ⟨disk, hw, ?_⟩
    cases buffer with
    | inMemory held => rfl
    | onDisk spill =>
        dsimp only at hok ⊢
        split at hok
        next hremove => rw [hremove]
        next => cases hok

/-- An artifact that was written without a buffer is the preamble. -/
theorem writeArtifact_none_ok {disk disk' : Disk} {path : Path} {preamble : Bytes}
    (hslash : path.endsInSlash = false)
    (h : writeArtifact disk path preamble none = (.ok (), disk')) :
    disk'.read path = .ok preamble := by
  have hwhole := writeArtifact_changesOnly disk hslash preamble none
  rw [h] at hwhole
  unfold writeArtifact at h
  split at h
  next => cases h
  next handle disk₁ hopen =>
    obtain ⟨hloc, hempty, -⟩ := Disk.openFile_ok hslash hopen
    split at h
    next => cases h
    next disk₂ hwrite =>
      cases h
      have hfile := Disk.writeAll_ok [] (by simpa using hempty) (congrArg Prod.fst hwrite)
      rw [List.length_nil, hwrite, List.nil_append] at hfile
      exact Disk.read_eq_ok.mpr ⟨handle.place, handle.stamp, Disk.find_eq_file.mpr
        ⟨Disk.locate_of_changesOnly hwhole hloc, hfile, hslash⟩⟩

/-- A direction without a buffer has the preamble in its artifact, unless one was there. -/
theorem archiveDirection_none_ok (hb : s.repository.buffer? d id = none)
    {target artifact : Path} {preamble : Bytes}
    (hfresh : s.disk.exists? (target.join (artifactName d)) = false)
    (hok : (s.archiveDirection id target preamble d).1 = .ok artifact) :
    Archived (s.archiveDirection id target preamble d).2.disk target d preamble := by
  unfold archiveDirection at hok ⊢
  simp only [hb, hfresh, Bool.and_false, Bool.false_eq_true, if_false] at hok ⊢
  split at hok
  next => cases hok
  next disk hw => exact writeArtifact_none_ok (endsInSlash_artifact target d) hw

/-- Archiving a direction without a buffer leaves its spill as it is. -/
theorem archiveDirection_of_none (hb : s.repository.buffer? d id = none) (target : Path)
    (preamble : Bytes) : SpillGone s (s.archiveDirection id target preamble d).2 d id := by
  have hslash := endsInSlash_artifact target d
  have hart := writeArtifact_changesOnly s.disk hslash preamble none
  refine spillGone_of_disk (fun spill hspill => ?_) fun p hp => ?_
  · rw [hb] at hspill
    cases hspill
  · unfold archiveDirection
    rw [hb]
    dsimp only
    split
    next => rfl
    next =>
      split
      next hw =>
        rw [hw] at hart
        exact hart.file? p fun hloc => not_endsIn_of_artifact hloc d id hp
      next hw =>
        rw [hw] at hart
        exact hart.file? p fun hloc => not_endsIn_of_artifact hloc d id hp

/-- Where a direction has no bytes, no artifact of an earlier attempt is in the way. -/
def Fresh (s : Store) (target : Path) (d : Direction) (bytes : Bytes) : Prop :=
  bytes = [] → s.disk.exists? (target.join (artifactName d)) = false

/-- A direction that was archived is in its artifact and in no spill. -/
theorem archiveDirection_archived (h : s.Keeps d id bytes) {target artifact : Path}
    {preamble : Bytes} (hok : (s.archiveDirection id target preamble d).1 = .ok artifact) :
    (s.Fresh target d bytes → Archived (s.archiveDirection id target preamble d).2.disk target d
        (preamble ++ bytes))
      ∧ SpillGone s (s.archiveDirection id target preamble d).2 d id := by
  have hslash := endsInSlash_artifact target d
  have hkept := h.kept
  cases hb : s.repository.buffer? d id with
  | none =>
      rw [hb] at hkept
      refine ⟨fun hfresh => ?_, archiveDirection_of_none hb target preamble⟩
      rw [show bytes = [] from hkept, List.append_nil]
      exact archiveDirection_none_ok hb (hfresh hkept) hok
  | some buffer =>
      obtain ⟨disk, hw, hrest⟩ := archiveDirection_ok hb hok
      have hart := writeArtifact_changesOnly s.disk hslash preamble (some buffer)
      rw [hw] at hart
      have harchived := writeArtifact_archived h hb hw
      cases buffer with
      | inMemory held =>
          rw [show (s.archiveDirection id target preamble d).2.disk = disk from hrest]
          refine ⟨fun _ => harchived, spillGone_of_disk (fun spill hspill => ?_) fun p hp => ?_⟩
          · rw [hb] at hspill
            cases hspill
          · rw [show (s.archiveDirection id target preamble d).2.disk = disk from hrest]
            exact hart.file? p fun hloc => not_endsIn_of_artifact hloc d id hp
      | onDisk spill =>
          have hremoved := disk.removeFile_changesOnly spill.path
          rw [show disk.removeFile spill.path = _ from hrest] at hremoved
          refine ⟨fun _ => harchived.frame hremoved fun p hp hloc => ?_,
            h.spillGone hb hart (fun p hp hloc => not_endsIn_of_artifact hloc d id hp) hrest rfl⟩
          exact Repository.artifactName_ne_spillName d d id (hp.unique (h.endsIn_spill hb hloc))

/-- The store in which a direction is archived when its exchange is; the request comes first. -/
def beforeArchiving (s : Store) (id : ExchangeId) (target : Path)
    (preamble : Direction → Bytes) : Direction → Store
  | .request => s
  | .response => (s.archiveDirection id target (preamble .request) .request).2

/-- Both directions of an exchange that was archived are in their artifacts and in no
spill. -/
theorem archiveInto_archived (h : s.Sound) {target : Path} {preamble : Direction → Bytes}
    {artifacts : List Path} (hok : (s.archiveInto id target preamble).1 = .ok artifacts)
    (hk : s.Keeps d id bytes) :
    ((s.beforeArchiving id target preamble d).Fresh target d bytes →
        Archived (s.archiveInto id target preamble).2.disk target d (preamble d ++ bytes))
      ∧ SpillGone s (s.archiveInto id target preamble).2 d id := by
  obtain ⟨_, hreq⟩ := h .request id
  obtain ⟨_, hres⟩ := archiveDirection_sound h id target (preamble .request) .request .response id
  have hc₁ := archiveDirection_changesOnly hreq target (preamble .request)
  have hc₂ := archiveDirection_changesOnly hres target (preamble .response)
  unfold archiveInto at hok ⊢
  split at hok
  next => cases hok
  next first s₁ hfirst =>
    rw [hfirst] at hres hc₁ hc₂
    dsimp only at hres hc₁ hc₂ ⊢
    split at hok
    next => cases hok
    next second s₂ hsecond =>
      rw [hsecond] at hc₂
      dsimp only at hc₂ ⊢
      have hgone₁ := (archiveDirection_archived hreq (congrArg Prod.fst hfirst)).2
      have hgone₂ := (archiveDirection_archived hres (congrArg Prod.fst hsecond)).2
      rw [hfirst] at hgone₁
      rw [hsecond] at hgone₂
      refine ⟨fun hfresh => ?_, spillGone_both (h .request id) hc₁ hc₂
        (fun d => spillsOf_archive id target d) hgone₁ hgone₂ d⟩
      cases d with
      | request =>
          have hart := (archiveDirection_archived hk (congrArg Prod.fst hfirst)).1 hfresh
          rw [hfirst] at hart
          -- the second direction leaves the artifact of the first alone
          exact hart.frame hc₂.disk fun p hp => not_archiveFile_of_endsIn (by decide) hp
      | response =>
          -- and the first left the buffer of the second as it was
          have hk₁ := hk.away (spillsOf_archive id target .request) hc₁ fun hkey => by cases hkey.1
          have hart := (archiveDirection_archived hk₁ (congrArg Prod.fst hsecond)).1
            (by simpa only [beforeArchiving, hfirst] using hfresh)
          rw [hsecond] at hart
          exact hart

/-- Both directions of a record that was archived are in their artifacts and in no spill. -/
theorem archive_archived (h : s.Sound) {base directory : Path} {r : Record}
    (hok : (Archive.archive s base r).1 = .ok directory) (hk : s.Keeps d r.id bytes) :
    Archive.shardDirectory base r.started.date r.id = .ok directory
      ∧ (((s.withDirectories directory).beforeArchiving r.id directory (preambles r) d).Fresh
          directory d bytes → Archived (Archive.archive s base r).2.disk directory d
          (preambles r d ++ bytes))
      ∧ SpillGone s (Archive.archive s base r).2 d r.id := by
  rcases archive_cases s base r with ⟨⟨failure, herr⟩, -⟩ | ⟨target, metrics, hshard, hs, hinto⟩
  · rw [herr] at hok
    cases hok
  · obtain ⟨rfl, artifacts, hartifacts⟩ := hinto directory hok
    have hdirs := withDirectories_changesOnly (fun _ _ => False) (fun _ => False) s directory
    -- making the directories is no change of a file
    have hk' : (s.withDirectories directory).Keeps d r.id bytes :=
      hk.frame hdirs not_false fun _ _ => not_false
    obtain ⟨hart, hgone⟩ := archiveInto_archived (withDirectories_sound h directory) hartifacts hk'
    rw [hs]
    exact ⟨hshard, hart, SpillGone.before ⟨hgone.gone, hgone.old⟩ hdirs not_false
      fun _ _ => not_false⟩

end Wiretap.Store
