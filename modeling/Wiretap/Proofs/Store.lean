/-
  Wiretap.Proofs.Store
  ────────────────────
  **WHAT A CALL ON THE STORE CAN CHANGE.**

  Each call works on the keys of one exchange and on files that are named after it; all
  other entries of the table and all other files are left alone (`Store.ChangesOnly`).  An
  entry keeps some bytes when its buffer holds them (`Store.Keeps`), and that outlasts what
  is done to other keys (`Store.Keeps.frame`).

    • `Store.write_keeps`                  — a write adds to what an entry keeps,
    • `Store.cleanupDirection_released`,
      `Store.persistDirection_released`,
      `Store.archiveDirection_released`    — the three ways to let go leave no buffer.
-/
import Wiretap.Proofs.Buffers

namespace Wiretap

/-! ## §1. The table. -/

theorem ExchangeId.text_inj {a b : ExchangeId} : a.text = b.text ↔ a = b := by
  cases a
  cases b
  simp

namespace Repository

/-- A table without entries has no buffer. -/
theorem buffer?_of_empty {r : Repository} (h : r.buffers = .both ∅) (d : Direction)
    (id : ExchangeId) : r.buffer? d id = none := by
  show (r.buffers.of d)[id.text]? = none
  rw [h, PerDirection.of_both, Std.ExtTreeMap.getElem?_empty]

theorem buffer?_put (r : Repository) (d d' : Direction) (id id' : ExchangeId) (b : Buffer) :
    (r.put d id b).buffer? d' id' = if d' = d ∧ id' = id then some b else r.buffer? d' id' := by
  unfold put buffer?
  simp only [PerDirection.of_modify]
  by_cases hd : d = d'
  · subst hd
    simp only [if_true, true_and, Std.ExtTreeMap.getElem?_insert,
      Std.LawfulEqCmp.compare_eq_iff_eq, ExchangeId.text_inj, @eq_comm _ id']
  · rw [if_neg hd, if_neg (fun h => hd h.1.symm)]

theorem buffer?_release (r : Repository) (d d' : Direction) (id id' : ExchangeId) :
    (r.release d id).buffer? d' id' = if d' = d ∧ id' = id then none else r.buffer? d' id' := by
  unfold release buffer?
  simp only [PerDirection.of_modify]
  by_cases hd : d = d'
  · subst hd
    simp only [if_true, true_and, Std.ExtTreeMap.getElem?_erase,
      Std.LawfulEqCmp.compare_eq_iff_eq, ExchangeId.text_inj, @eq_comm _ id']
  · rw [if_neg hd, if_neg (fun h => hd h.1.symm)]

theorem buffer?_hold (r : Repository) (d d' : Direction) (id id' : ExchangeId)
    (held : Option Buffer) :
    (r.hold d id held).buffer? d' id'
      = if d' = d ∧ id' = id then held.or (r.buffer? d id) else r.buffer? d' id' := by
  cases held with
  | none =>
      by_cases h : d' = d ∧ id' = id
      · rw [if_pos h, h.1, h.2]
        rfl
      · rw [if_neg h]
        rfl
  | some b => exact buffer?_put r d d' id id' b

theorem hold_settings (r : Repository) (d : Direction) (id : ExchangeId) (held : Option Buffer) :
    (r.hold d id held).enabled = r.enabled ∧ (r.hold d id held).directory = r.directory
      ∧ (r.hold d id held).threshold = r.threshold := by
  cases held <;> exact ⟨rfl, rfl, rfl⟩

end Repository

/-! ## §2. Keys and places that changed. -/

/-- A place whose last name is this one. -/
def EndsIn (name : String) (place : Place) : Prop := ∃ above, place = above ++ [name]

theorem EndsIn.unique {a b : String} {place : Place} (ha : EndsIn a place) (hb : EndsIn b place) :
    a = b := by
  obtain ⟨x, rfl⟩ := ha
  obtain ⟨y, hy⟩ := hb
  simpa using congrArg List.getLast? hy

namespace Store

variable {s s' s'' : Store} {d d' : Direction} {id id' : ExchangeId} {bytes : Bytes}
variable {keys keys' : Direction → ExchangeId → Prop} {files files' : Place → Prop}

/-- From one store to a later one, only buffers under some keys and files at some places
changed. -/
structure ChangesOnly (keys : Direction → ExchangeId → Prop) (files : Place → Prop)
    (s s' : Store) : Prop where
  buffer? : ∀ d id, ¬ keys d id → s'.repository.buffer? d id = s.repository.buffer? d id
  enabled : s'.repository.enabled = s.repository.enabled
  directory : s'.repository.directory = s.repository.directory
  threshold : s'.repository.threshold = s.repository.threshold
  disk : Disk.ChangesOnly files s.disk s'.disk

namespace ChangesOnly

theorem refl (s : Store) : ChangesOnly keys files s s := ⟨fun _ _ _ => rfl, rfl, rfl, rfl, .refl _⟩

theorem trans (h : ChangesOnly keys files s s') (h' : ChangesOnly keys files s' s'') :
    ChangesOnly keys files s s'' :=
  ⟨fun d id hk => (h'.buffer? d id hk).trans (h.buffer? d id hk), h'.enabled.trans h.enabled,
    h'.directory.trans h.directory, h'.threshold.trans h.threshold, h.disk.trans h'.disk⟩

theorem mono (h : ChangesOnly keys files s s') (hk : ∀ d id, keys d id → keys' d id)
    (hf : ∀ p, files p → files' p) : ChangesOnly keys' files' s s' :=
  ⟨fun d id hn => h.buffer? d id fun hd => hn (hk d id hd), h.enabled, h.directory, h.threshold,
    h.disk.mono hf⟩

/-- The counters make no difference. -/
theorem withMetrics (h : ChangesOnly keys files s s') (metrics : Metrics) :
    ChangesOnly keys files s { s' with metrics } :=
  ⟨h.buffer?, h.enabled, h.directory, h.threshold, h.disk⟩

/-- A change of the disk alone. -/
theorem of_disk (h : Disk.ChangesOnly files s.disk s'.disk) (hr : s'.repository = s.repository) :
    ChangesOnly keys files s s' := by
  refine ⟨fun d id _ => ?_, ?_, ?_, ?_, h⟩ <;> rw [hr]

end ChangesOnly

/-- The key of one direction of one exchange. -/
def Key (d : Direction) (id : ExchangeId) (d' : Direction) (id' : ExchangeId) : Prop :=
  d' = d ∧ id' = id

theorem release_changesOnly (files : Place → Prop) (s : Store) (d : Direction) (id : ExchangeId) :
    ChangesOnly (Key d id) files s { s with repository := s.repository.release d id } := by
  refine ⟨fun d' id' hk => ?_, rfl, rfl, rfl, .refl _⟩
  show (s.repository.release d id).buffer? d' id' = _
  rw [Repository.buffer?_release]
  exact if_neg hk

/-! ## §3. What an entry keeps. -/

/-- What stands under a key is a buffer of these bytes, or nothing where there are none. -/
structure Keeps (s : Store) (d : Direction) (id : ExchangeId) (bytes : Bytes) : Prop where
  kept : Buffer.Kept s.disk s.repository.threshold (s.repository.bufferPath d id) bytes
    (s.repository.buffer? d id)
  safe : bytes ≠ [] → id.isPathSafe = true

theorem Keeps.withMetrics (h : s.Keeps d id bytes) (metrics : Metrics) :
    Keeps { s with metrics } d id bytes := ⟨h.kept, h.safe⟩

/-- The path of a spill leads to a place of its name. -/
theorem endsIn_of_locate_bufferPath {disk : Disk} {r : Repository} {place : Place}
    (hsafe : id.isPathSafe = true) (h : disk.locate (r.bufferPath d id) = .ok place) :
    EndsIn (Repository.spillName d id) place := by
  exact Disk.locate_join (Repository.isProper_spillName hsafe d) h

theorem endsInSlash_bufferPath (r : Repository) (hsafe : id.isPathSafe = true) (d : Direction) :
    (r.bufferPath d id).endsInSlash = false :=
  Path.endsInSlash_join _ (Repository.isProper_spillName hsafe d).1

/-- An entry with no bytes has no buffer. -/
theorem Keeps.buffer?_nil (h : s.Keeps d id []) : s.repository.buffer? d id = none := by
  have hkept := h.kept
  cases hb : s.repository.buffer? d id with
  | none => rfl
  | some b =>
      rw [hb] at hkept
      exact absurd rfl hkept.1

/-- The bytes of a kept buffer are all in memory, and fit there, or all in its spill. -/
theorem Keeps.holds (h : s.Keeps d id bytes) {buffer : Buffer}
    (hb : s.repository.buffer? d id = some buffer) :
    buffer.Holds s.disk s.repository.threshold (s.repository.bufferPath d id) bytes := by
  have hkept := h.kept
  rw [hb] at hkept
  exact hkept.2

theorem Keeps.isPathSafe (h : s.Keeps d id bytes)
    (hnone : s.repository.buffer? d id = none → id.isPathSafe = true) : id.isPathSafe = true := by
  by_cases hbytes : bytes = []
  · subst hbytes
    exact hnone h.buffer?_nil
  · exact h.safe hbytes

/-- What an entry keeps outlasts every change to other keys and to files that are no spill
of it. -/
theorem Keeps.frame (h : s.Keeps d id bytes) (hc : ChangesOnly keys files s s')
    (hkey : ¬ keys d id) (hfile : ∀ p, EndsIn (Repository.spillName d id) p → ¬ files p) :
    s'.Keeps d id bytes := by
  -- the directory is the same, so the spill would have the same path
  have hpath : s'.repository.bufferPath d id = s.repository.bufferPath d id := by
    simp only [Repository.bufferPath, hc.directory]
  refine ⟨?_, h.safe⟩
  rw [hc.buffer? d id hkey, hpath, hc.threshold]
  by_cases hbytes : bytes = []
  · -- nothing is kept, so there is no file to watch
    subst hbytes
    rw [h.buffer?_nil]
    rfl
  · -- its spill has a name of its own, so the file under it is not among those that changed
    refine h.kept.frame hc.disk fun p hp => ?_
    exact hfile p (endsIn_of_locate_bufferPath (h.safe hbytes) hp)

/-! ## §4. Writing. -/

/-- What writing to the entry of a key gives. -/
def entryWrite (s : Store) (d : Direction) (id : ExchangeId) (chunk : Bytes) :
    Except CaptureFailure Bool × Option Buffer × Disk :=
  Buffer.write (s.repository.buffer? d id) s.disk chunk s.repository.threshold
    (s.repository.bufferPath d id)

/-- A write is ignored, or refused for its identifier, or it is one to the entry of its key. -/
theorem write_cases (s : Store) (d : Direction) (id : ExchangeId) (chunk : Bytes) :
    ((s.repository.enabled = false ∨ chunk = []) ∧ s.write d id chunk = (.ok (), s))
    ∨ (s.repository.enabled = true ∧ chunk ≠ [] ∧ s.repository.buffer? d id = none
        ∧ id.isPathSafe = false ∧ s.write d id chunk = (.error (.unusableId id), s))
    ∨ (s.repository.enabled = true ∧ chunk ≠ []
        ∧ (s.repository.buffer? d id = none → id.isPathSafe = true)
        ∧ (s.write d id chunk).1 = (s.entryWrite d id chunk).1.map (fun _ => ())
        ∧ (s.write d id chunk).2.disk = (s.entryWrite d id chunk).2.2
        ∧ (s.write d id chunk).2.repository
            = s.repository.hold d id (s.entryWrite d id chunk).2.1) := by
  by_cases hskip : (!s.repository.enabled || chunk.isEmpty) = true
  · refine Or.inl ⟨?_, by simp only [write, if_pos hskip]⟩
    simpa using hskip
  · have hlive : s.repository.enabled = true ∧ chunk ≠ [] := by simpa using hskip
    by_cases hbad : ((s.repository.buffer? d id).isNone && !id.isPathSafe) = true
    · refine Or.inr (Or.inl ⟨hlive.1, hlive.2, ?_, ?_, ?_⟩)
      · simp only [Bool.and_eq_true, Option.isNone_iff_eq_none] at hbad
        exact hbad.1
      · simp only [Bool.and_eq_true, Bool.not_eq_true'] at hbad
        exact hbad.2
      · simp only [write, if_neg hskip, if_pos hbad]
    · refine Or.inr (Or.inr ⟨hlive.1, hlive.2, ?_, ?_⟩)
      · intro hnone
        simpa [hnone] using hbad
      · simp only [write, if_neg hskip, if_neg hbad]
        show _ ∧ _ ∧ _
        unfold entryWrite
        split <;> simp_all [counted, Except.map]

/-- A write changes the entry of its key and the spill of that. -/
theorem write_changesOnly (h : s.Keeps d id bytes) (chunk : Bytes) :
    ChangesOnly (Key d id) (EndsIn (Repository.spillName d id)) s (s.write d id chunk).2 := by
  rcases s.write_cases d id chunk with ⟨-, hw⟩ | ⟨-, -, -, -, hw⟩ | ⟨-, -, hsafe, -, hdisk, hrepo⟩
  · rw [hw]
    exact .refl s
  · rw [hw]
    exact .refl s
  · have hid := h.isPathSafe hsafe
    have hset := s.repository.hold_settings d id (s.entryWrite d id chunk).2.1
    have hc := Buffer.write_changesOnly (endsInSlash_bufferPath s.repository hid d) h.kept chunk
    refine ⟨?_, ?_, ?_, ?_, ?_⟩
    · intro d' id' hk
      rw [hrepo, Repository.buffer?_hold]
      exact if_neg hk
    · rw [hrepo, hset.1]
    · rw [hrepo, hset.2.1]
    · rw [hrepo, hset.2.2]
    · rw [hdisk]
      exact hc.mono fun p hp => endsIn_of_locate_bufferPath hid hp

/-- A write adds a prefix of its chunk to what the entry keeps, and all of it when it
succeeds. -/
theorem write_keeps (he : s.repository.enabled = true) (h : s.Keeps d id bytes) (chunk : Bytes) :
    ∃ landed, landed <+: chunk ∧ (s.write d id chunk).2.Keeps d id (bytes ++ landed)
      ∧ ((s.write d id chunk).1 = .ok () → landed = chunk) := by
  rcases s.write_cases d id chunk with
    ⟨hidle, hw⟩ | ⟨-, -, -, -, hw⟩ | ⟨-, hne, hsafe, hout, hdisk, hrepo⟩
  · refine ⟨[], List.nil_prefix, ?_, ?_⟩
    · rw [hw, List.append_nil]
      exact h
    · intro _
      rcases hidle with hoff | hempty
      · rw [he] at hoff
        cases hoff
      · exact hempty.symm
  · refine ⟨[], List.nil_prefix, ?_, ?_⟩
    · rw [hw, List.append_nil]
      exact h
    · intro hok
      rw [hw] at hok
      cases hok
  · have hid := h.isPathSafe hsafe
    have hset := s.repository.hold_settings d id (s.entryWrite d id chunk).2.1
    obtain ⟨landed, hprefix, hkept, hall⟩ :=
      Buffer.write_kept (endsInSlash_bufferPath s.repository hid d) h.kept hne
    refine ⟨landed, hprefix, ⟨?_, fun _ => hid⟩, ?_⟩
    · have hpath : (s.write d id chunk).2.repository.bufferPath d id
          = s.repository.bufferPath d id := by
        simp only [Repository.bufferPath, hrepo, hset.2.1]
      rw [hpath, hdisk, hrepo, hset.2.2, Repository.buffer?_hold, if_pos ⟨rfl, rfl⟩]
      have hentry : Buffer.Kept (s.entryWrite d id chunk).2.2 s.repository.threshold
          (s.repository.bufferPath d id) (bytes ++ landed) (s.entryWrite d id chunk).2.1 := hkept
      cases hheld : (s.entryWrite d id chunk).2.1 with
      | some b =>
          rw [hheld] at hentry
          exact hentry
      | none =>
          -- a write that leaves no buffer has found none
          rw [hheld] at hentry
          have hnil : bytes ++ landed = [] := hentry
          have hbefore := h
          rw [(List.append_eq_nil_iff.mp hnil).1] at hbefore
          rw [hbefore.buffer?_nil]
          exact hnil
    · intro hok
      rw [hout] at hok
      apply hall
      show (s.entryWrite d id chunk).1.isOk = true
      cases hw : (s.entryWrite d id chunk).1 with
      | ok spilled => rfl
      | error failure =>
          rw [hw] at hok
          cases hok

/-- A write fails for a file, or because a first chunk has an identifier that is no name. -/
theorem write_error {chunk : Bytes} {failure : CaptureFailure}
    (h : (s.write d id chunk).1 = .error failure) :
    failure.OfFile ∨ (id.isPathSafe = false ∧ chunk ≠ []) := by
  rcases s.write_cases d id chunk with ⟨-, hw⟩ | ⟨-, hne, -, hrefused, -⟩ | ⟨-, -, -, hout, -, -⟩
  · rw [hw] at h
    cases h
  · exact Or.inr ⟨hrefused, hne⟩
  · rw [hout] at h
    refine Or.inl ?_
    cases hentry : (s.entryWrite d id chunk).1 with
    | ok spilled =>
        rw [hentry] at h
        cases h
    | error failure' =>
        rw [hentry] at h
        cases h
        exact Buffer.write_error hentry

/-! ## §5. Letting go. -/

theorem keeps_nil (h : s.repository.buffer? d id = none) : s.Keeps d id [] := by
  refine ⟨?_, fun hne => absurd rfl hne⟩
  rw [h]
  rfl

/-- The places that the artifact of a direction may have. -/
def ArtifactPlace (target : Path) (d : Direction) (place : Place) : Prop :=
  ∃ disk : Disk, disk.locate (target.join (artifactName d)) = .ok place

theorem endsIn_of_artifactPlace {target : Path} {place : Place} (h : ArtifactPlace target d place) :
    EndsIn (artifactName d) place := by
  obtain ⟨disk, hloc⟩ := h
  exact Disk.locate_join (Repository.isProper_artifactName d) hloc

/-- The spill of a kept entry lies where a place of its name is. -/
theorem Keeps.endsIn_spill (h : s.Keeps d id bytes) {spill : Spill}
    (hb : s.repository.buffer? d id = some (.onDisk spill)) {disk : Disk} {place : Place}
    (hloc : disk.locate spill.path = .ok place) : EndsIn (Repository.spillName d id) place := by
  have hkept := h.kept
  rw [hb] at hkept
  obtain ⟨hne, hpath, -⟩ := hkept
  rw [hpath] at hloc
  exact endsIn_of_locate_bufferPath (h.safe hne) hloc

theorem cleanupDirection_released (s : Store) (id : ExchangeId) (d : Direction) :
    (s.cleanupDirection id d).repository.buffer? d id = none := by
  unfold cleanupDirection
  split
  next h => exact h
  next =>
    split <;> exact (Repository.buffer?_release _ _ _ _ _).trans (if_pos ⟨rfl, rfl⟩)

/-- Cleaning a direction up changes its entry and its spill. -/
theorem cleanupDirection_changesOnly (h : s.Keeps d id bytes) :
    ChangesOnly (Key d id) (EndsIn (Repository.spillName d id)) s (s.cleanupDirection id d) := by
  unfold cleanupDirection
  split
  next => exact .refl s
  next buffer hb =>
    have hrel := release_changesOnly (EndsIn (Repository.spillName d id)) s d id
    split
    next => exact hrel
    next spill =>
      refine hrel.trans (.of_disk ?_ rfl)
      exact (Disk.removeFile_changesOnly s.disk spill.path).mono fun p hp => h.endsIn_spill hb hp

theorem persistDirection_released (s : Store) (id : ExchangeId) (d : Direction) :
    (s.persistDirection id d).repository.buffer? d id = none := by
  have hrel := (s.repository.buffer?_release d d id id).trans (if_pos ⟨rfl, rfl⟩)
  unfold persistDirection
  split
  next h => exact h
  next =>
    split
    next => exact hrel
    next => dsimp only; split <;> exact hrel

/-- The path of a file saved in an emergency leads to a place of its name. -/
theorem endsIn_of_locate_emergencyPath {disk : Disk} {r : Repository} {place : Place}
    (hsafe : id.isPathSafe = true) (h : disk.locate (r.emergencyPath d id) = .ok place) :
    EndsIn (Repository.emergencyName d id) place := by
  exact Disk.locate_join (Repository.isProper_emergencyName hsafe d) h

theorem endsInSlash_emergencyPath (r : Repository) (hsafe : id.isPathSafe = true)
    (d : Direction) : (r.emergencyPath d id).endsInSlash = false :=
  Path.endsInSlash_join _ (Repository.isProper_emergencyName hsafe d).1

/-- Saving a direction changes its entry and the file it is saved in. -/
theorem persistDirection_changesOnly (h : s.Keeps d id bytes) :
    ChangesOnly (Key d id) (EndsIn (Repository.emergencyName d id)) s
      (s.persistDirection id d) := by
  unfold persistDirection
  split
  next => exact .refl s
  next buffer hb =>
    have hrel := release_changesOnly (EndsIn (Repository.emergencyName d id)) s d id
    split
    next => exact hrel
    next held =>
      -- there is a buffer, so the identifier was safe
      have hid : id.isPathSafe = true := h.isPathSafe (by simp [hb])
      have hsave : Disk.ChangesOnly (EndsIn (Repository.emergencyName d id)) s.disk
          (s.disk.writeFile ((s.repository.release d id).emergencyPath d id) held).2 :=
        (Disk.writeFile_changesOnly s.disk
          (endsInSlash_emergencyPath s.repository hid d) held).mono
            fun p hp => endsIn_of_locate_emergencyPath hid hp
      dsimp only
      split
      next disk hw =>
        rw [hw] at hsave
        exact hrel.trans (.of_disk hsave rfl)
      next fault disk hw =>
        rw [hw] at hsave
        exact hrel.trans (.of_disk hsave rfl)

theorem copyBuffer_changesOnly (disk : Disk) (path : Path) (handle : Handle) (offset : Nat)
    (buffer : Buffer) :
    Disk.ChangesOnly (· = handle.place) disk (copyBuffer disk path handle offset buffer).2 := by
  cases buffer with
  | inMemory bytes =>
      have hw := Disk.writeAll_changesOnly disk handle offset bytes
      simp only [copyBuffer]
      split
      next hwrite => rwa [hwrite] at hw
      next hwrite => rwa [hwrite] at hw
  | onDisk spill =>
      have hask := Disk.ask_changesOnly (· = handle.place) disk
      simp only [copyBuffer]
      split
      next ha => rwa [ha] at hask
      next disk₁ ha =>
        rw [ha] at hask
        split
        next => exact hask
        next => exact hask
        next stamp bytes hfind =>
          have hw := hask.trans (Disk.writeAll_changesOnly disk₁ handle offset bytes)
          split
          next hwrite => rwa [hwrite] at hw
          next hwrite => rwa [hwrite] at hw

/-- Writing an artifact changes only the place where its path leads. -/
theorem writeArtifact_changesOnly (disk : Disk) {path : Path} (hslash : path.endsInSlash = false)
    (preamble : Bytes) (buffer : Option Buffer) :
    Disk.ChangesOnly (fun p => disk.locate path = .ok p) disk
      (writeArtifact disk path preamble buffer).2 := by
  unfold writeArtifact
  split
  next ho => exact Disk.openFile_error ho
  next handle disk₁ ho =>
    obtain ⟨hloc, -, hopen⟩ := Disk.openFile_ok hslash ho
    have hsub : ∀ p, p = handle.place → disk.locate path = .ok p := by
      rintro p rfl
      exact hloc
    -- the file is opened, and what is written goes to that handle
    have hpre := hopen.trans (Disk.writeAll_changesOnly disk₁ handle 0 preamble)
    split
    next hw =>
      rw [hw] at hpre
      exact hpre.mono hsub
    next disk₂ hw =>
      rw [hw] at hpre
      split
      next => exact hpre.mono hsub
      next buffer =>
        exact (hpre.trans (copyBuffer_changesOnly disk₂ path handle preamble.length buffer)).mono
          hsub

theorem endsInSlash_artifact (target : Path) (d : Direction) :
    (target.join (artifactName d)).endsInSlash = false :=
  Path.endsInSlash_join _ (Repository.isProper_artifactName d).1

/-- The files that archiving a direction works on. -/
def ArchiveFile (id : ExchangeId) (target : Path) (d : Direction) (place : Place) : Prop :=
  ArtifactPlace target d place ∨ EndsIn (Repository.spillName d id) place

/-- Archiving a direction changes its entry, its artifact and its spill. -/
theorem archiveDirection_changesOnly (h : s.Keeps d id bytes) (target : Path) (preamble : Bytes) :
    ChangesOnly (Key d id) (ArchiveFile id target d) s
      (s.archiveDirection id target preamble d).2 := by
  -- first the artifact, then the entry, and the spill last
  have hart : Disk.ChangesOnly (ArchiveFile id target d) s.disk
      (writeArtifact s.disk (target.join (artifactName d)) preamble
        (s.repository.buffer? d id)).2 :=
    (writeArtifact_changesOnly s.disk (endsInSlash_artifact target d) preamble
      (s.repository.buffer? d id)).mono fun p hp => Or.inl ⟨s.disk, hp⟩
  unfold archiveDirection
  dsimp only
  split
  next => exact .refl s
  next =>
    split
    next failure disk hw =>
      rw [hw] at hart
      exact .of_disk hart rfl
    next disk hw =>
      rw [hw] at hart
      have hcopied : ChangesOnly (Key d id) (ArchiveFile id target d) s { s with disk } :=
        .of_disk hart rfl
      have hrel := hcopied.trans (release_changesOnly _ { s with disk } d id)
      split
      next spill hb =>
        have hremove : Disk.ChangesOnly (ArchiveFile id target d) disk
            (disk.removeFile spill.path).2 :=
          (Disk.removeFile_changesOnly disk spill.path).mono
            fun p hp => Or.inr (h.endsIn_spill hb hp)
        split
        next hgone =>
          rw [hgone] at hremove
          exact hrel.trans (.of_disk hremove rfl)
        next hgone =>
          rw [hgone] at hremove
          exact hrel.trans (.of_disk hremove rfl)
      next => exact hrel

/-- A direction that was archived has no buffer. -/
theorem archiveDirection_released {target artifact : Path} {preamble : Bytes}
    (h : (s.archiveDirection id target preamble d).1 = .ok artifact) :
    (s.archiveDirection id target preamble d).2.repository.buffer? d id = none := by
  have hrel := (s.repository.buffer?_release d d id id).trans (if_pos ⟨rfl, rfl⟩)
  unfold archiveDirection at h ⊢
  dsimp only at h ⊢
  split
  next hskip =>
    simp only [Bool.and_eq_true, Option.isNone_iff_eq_none] at hskip
    exact hskip.1
  next hskip =>
    rw [if_neg hskip] at h
    split
    next hw =>
      rw [hw] at h
      cases h
    next =>
      split
      next => split <;> exact hrel
      next => exact hrel

theorem copyBuffer_error {disk disk' : Disk} {path : Path} {handle : Handle} {offset : Nat}
    {buffer : Buffer} {failure : CaptureFailure}
    (h : copyBuffer disk path handle offset buffer = (.error failure, disk')) :
    failure.OfFile := by
  cases buffer with
  | inMemory bytes =>
      simp only [copyBuffer] at h
      split at h <;> cases h
      trivial
  | onDisk spill =>
      simp only [copyBuffer] at h
      split at h
      next =>
        cases h
        trivial
      next =>
        split at h
        next =>
          cases h
          trivial
        next =>
          cases h
          trivial
        next =>
          split at h <;> cases h
          trivial

/-- An archive attempt can only fail for its files. -/
theorem archiveDirection_error {target : Path} {preamble : Bytes} {failure : CaptureFailure}
    (h : (s.archiveDirection id target preamble d).1 = .error failure) : failure.OfFile := by
  unfold archiveDirection at h
  dsimp only at h
  split at h
  next => cases h
  next =>
    split at h
    next hart =>
      cases h
      unfold writeArtifact at hart
      split at hart
      next =>
        cases hart
        trivial
      next =>
        split at hart
        next =>
          cases hart
          trivial
        next =>
          split at hart
          next => cases hart
          next => exact copyBuffer_error hart
    next =>
      split at h
      next =>
        split at h <;> cases h
        trivial
      next => cases h

end Store

end Wiretap
