/-
  Wiretap.Proofs.Confinement
  ──────────────────────────
  **FILES STAY WHERE THEY BELONG.**

  The buffers have one directory, and the archive another.  An identifier is looked at before
  it becomes part of a name: when its first buffer is made, and when it is archived.  So the
  table holds safe identifiers only, and calls keep to these two directories; beside them,
  the archive makes the directories on the way to its own:

    • `Store.carryOut_alters`    — the places that one call leaves changed,
    • `Store.carryOut_of_unsafe` — an identifier that is no name comes to nothing,
    • `Store.calls_confined`     — any number of calls.
-/
import Wiretap.Proofs.Settling
import Wiretap.Proofs.Shards

namespace Wiretap.Store

open Disk Repository Archive

variable {s s' : Store} {d : Direction} {id : ExchangeId} {bytes : Bytes}
  {written removed made : Place → Prop}

/-! ## §1. Where the files of buffers are. -/

/-- The place of the directory of the buffers. -/
def bufferPlace (s : Store) : Place := s.disk.placeOf s.repository.directory

/-- The place of the spill of a direction. -/
def spillPlace (s : Store) (d : Direction) (id : ExchangeId) : Place :=
  s.disk.placeOf (s.repository.bufferPath d id)

/-- The place where a direction is saved in an emergency. -/
def emergencyPlace (s : Store) (d : Direction) (id : ExchangeId) : Place :=
  s.disk.placeOf (s.repository.emergencyPath d id)

/-- Both are right below the directory. -/
theorem spillPlace_eq (s : Store) (hsafe : id.isPathSafe = true) (d : Direction) :
    s.spillPlace d id = s.bufferPlace ++ [spillName d id] :=
  placeOf_join (isProper_spillName hsafe d) _

theorem emergencyPlace_eq (s : Store) (hsafe : id.isPathSafe = true) (d : Direction) :
    s.emergencyPlace d id = s.bufferPlace ++ [emergencyName d id] :=
  placeOf_join (isProper_emergencyName hsafe d) _

/-- The places of the spills of an exchange. -/
def SpillAt (s : Store) (id : ExchangeId) (p : Place) : Prop :=
  ∃ d, p = s.bufferPlace ++ [spillName d id]

/-- The places where an exchange is saved in an emergency. -/
def EmergencyAt (s : Store) (id : ExchangeId) (p : Place) : Prop :=
  ∃ d, p = s.bufferPlace ++ [emergencyName d id]

/-- The places of artifacts in a directory. -/
def ArtifactAt (s : Store) (target : Path) (p : Place) : Prop :=
  ∃ d, p = s.disk.placeOf target ++ [artifactName d]

/-! These depend on where the directories are, and on nothing else. -/

theorem bufferPlace_of_same (hdirectory : s'.repository.directory = s.repository.directory)
    (hworking : s'.disk.workingDirectory = s.disk.workingDirectory) :
    s'.bufferPlace = s.bufferPlace := by
  unfold bufferPlace
  rw [hdirectory, placeOf_of_workingDirectory hworking]

theorem spillAt_of_same (hdirectory : s'.repository.directory = s.repository.directory)
    (hworking : s'.disk.workingDirectory = s.disk.workingDirectory) (id : ExchangeId) :
    s'.SpillAt id = s.SpillAt id := by
  funext p
  unfold SpillAt
  rw [bufferPlace_of_same hdirectory hworking]

theorem emergencyAt_of_same (hdirectory : s'.repository.directory = s.repository.directory)
    (hworking : s'.disk.workingDirectory = s.disk.workingDirectory) (id : ExchangeId) :
    s'.EmergencyAt id = s.EmergencyAt id := by
  funext p
  unfold EmergencyAt
  rw [bufferPlace_of_same hdirectory hworking]

theorem artifactAt_of_same (hworking : s'.disk.workingDirectory = s.disk.workingDirectory)
    (target : Path) : s'.ArtifactAt target = s.ArtifactAt target := by
  funext p
  unfold ArtifactAt
  rw [placeOf_of_workingDirectory hworking]

/-! ## §2. One direction at a time. -/

/-- An entry with a buffer has a safe identifier. -/
theorem Keeps.isPathSafe_of_some (h : s.Keeps d id bytes) {buffer : Buffer}
    (hb : s.repository.buffer? d id = some buffer) : id.isPathSafe = true :=
  h.isPathSafe fun hnone => by
    rw [hb] at hnone
    cases hnone

/-- The spill of an entry lies right below the directory of the buffers. -/
theorem Keeps.place_of_spill (h : s.Keeps d id bytes) {spill : Spill}
    (hb : s.repository.buffer? d id = some (.onDisk spill)) :
    s.disk.placeOf spill.path = s.bufferPlace ++ [spillName d id] := by
  obtain ⟨hpath, -, -⟩ := h.holds hb
  rw [hpath]
  exact spillPlace_eq s (h.isPathSafe_of_some hb) d

theorem write_alters (h : s.Keeps d id bytes) (chunk : Bytes) :
    Alters (· = s.bufferPlace ++ [spillName d id]) (· = s.bufferPlace ++ [spillName d id]) made
      s.disk (s.write d id chunk).2.disk := by
  rcases s.write_cases d id chunk with ⟨-, hw⟩ | ⟨-, -, -, -, hw⟩ | ⟨-, -, hsafe, -, hdisk, -⟩
  · rw [hw]
    exact .refl _
  · rw [hw]
    exact .refl _
  · have hid := h.isPathSafe hsafe
    rw [hdisk, ← spillPlace_eq s hid d]
    exact Buffer.write_alters h.kept chunk

theorem cleanupDirection_alters (h : s.Keeps d id bytes) :
    Alters written (s.SpillAt id) made s.disk (s.cleanupDirection id d).disk := by
  unfold cleanupDirection
  split
  next => exact .refl _
  next buffer hb =>
    split
    next => exact .refl _
    next spill =>
      exact (removeFile_alters s.disk spill.path).mono (fun _ hp => hp)
        (fun _ hp => ⟨d, hp.trans (h.place_of_spill hb)⟩) fun _ hp => hp

theorem persistDirection_alters (h : s.Keeps d id bytes) :
    Alters (s.EmergencyAt id) removed made s.disk (s.persistDirection id d).disk := by
  unfold persistDirection
  split
  next => exact .refl _
  next buffer hb =>
    split
    next => exact .refl _
    next held =>
      have hsaved : Alters (s.EmergencyAt id) removed made s.disk
          (s.disk.writeFile ((s.repository.release d id).emergencyPath d id) held).2 :=
        (writeFile_alters s.disk (s.repository.emergencyPath d id) held).mono
          (fun _ hp => ⟨d, hp.trans (emergencyPlace_eq s (h.isPathSafe_of_some hb) d)⟩)
          (fun _ hp => hp) fun _ hp => hp
      dsimp only
      split
      next hw => rwa [hw] at hsaved
      next hw => rwa [hw] at hsaved

theorem copyBuffer_alters (disk : Disk) (path : Path) (handle : Handle) (offset : Nat)
    (buffer : Buffer) :
    Alters (· = handle.place) removed made disk
      (copyBuffer disk path handle offset buffer).2 := by
  have hall : ∀ (disk₁ : Disk) (bytes : Bytes), Alters (· = handle.place) removed made disk₁
      (disk₁.writeAll handle offset bytes).2 :=
    fun disk₁ bytes => writeAll_alters disk₁ handle offset bytes
  cases buffer with
  | inMemory bytes =>
      have hwritten := hall disk bytes
      simp only [copyBuffer]
      split
      next hw => rwa [hw] at hwritten
      next hw => rwa [hw] at hwritten
  | onDisk spill =>
      have hask : Alters (· = handle.place) removed made disk disk.ask.2 := .ask disk
      simp only [copyBuffer]
      split
      next ha => rwa [ha] at hask
      next disk₁ ha =>
        rw [ha] at hask
        split
        next => exact hask
        next => exact hask
        next stamp bytes hfind =>
          have hwritten := hask.trans (hall disk₁ bytes)
          split
          next hw => rwa [hw] at hwritten
          next hw => rwa [hw] at hwritten

theorem writeArtifact_alters (disk : Disk) (path : Path) (preamble : Bytes)
    (buffer : Option Buffer) :
    Alters (· = disk.placeOf path) removed made disk
      (writeArtifact disk path preamble buffer).2 := by
  have hopened : Alters (· = disk.placeOf path) removed made disk (disk.openFile path true).2 :=
    openFile_alters disk path true
  unfold writeArtifact
  split
  next h => rwa [h] at hopened
  next handle disk₁ h =>
    rw [h] at hopened
    rw [← place_of_openFile h] at hopened ⊢
    -- all that is written goes to the file that was opened
    have hpreamble := hopened.trans (writeAll_alters disk₁ handle 0 preamble)
    split
    next hw => rwa [hw] at hpreamble
    next disk₂ hw =>
      rw [hw] at hpreamble
      split
      next => exact hpreamble
      next buffer =>
        exact hpreamble.trans (copyBuffer_alters disk₂ path handle preamble.length buffer)

theorem archiveDirection_alters (h : s.Keeps d id bytes) (target : Path) (preamble : Bytes) :
    Alters (s.ArtifactAt target) (s.SpillAt id) made s.disk
      (s.archiveDirection id target preamble d).2.disk := by
  have hartifact : Alters (s.ArtifactAt target) (s.SpillAt id) made s.disk
      (writeArtifact s.disk (target.join (artifactName d)) preamble
        (s.repository.buffer? d id)).2 :=
    (writeArtifact_alters s.disk (target.join (artifactName d)) preamble
      (s.repository.buffer? d id)).mono
      (fun _ hp => ⟨d, hp.trans (placeOf_join (isProper_artifactName d) target)⟩)
      (fun _ hp => hp) fun _ hp => hp
  unfold archiveDirection
  dsimp only
  split
  next => exact .refl _
  next =>
    split
    next hw => rwa [hw] at hartifact
    next disk hw =>
      rw [hw] at hartifact
      split
      next spill hb =>
        have hplace : disk.placeOf spill.path = s.bufferPlace ++ [spillName d id] := by
          rw [placeOf_of_workingDirectory hartifact.workingDirectory]
          exact h.place_of_spill hb
        have hmoved := hartifact.trans ((removeFile_alters disk spill.path).mono
          (fun _ hp => hp) (fun _ hp => ⟨d, hp.trans hplace⟩) fun _ hp => hp)
        split
        next hw' => rwa [hw'] at hmoved
        next hw' => rwa [hw'] at hmoved
      next => exact hartifact

/-! ## §3. Both directions. -/

theorem cleanup_alters (h : s.Sound) (id : ExchangeId) :
    Alters written (s.SpillAt id) made s.disk (s.cleanup id).disk := by
  obtain ⟨_, hrequest⟩ := h .request id
  obtain ⟨_, hresponse⟩ := cleanupDirection_sound h id .request .response id
  have hfirst : Alters written (s.SpillAt id) made s.disk (s.cleanupDirection id .request).disk :=
    cleanupDirection_alters hrequest
  -- in between, the directory of the buffers is the same
  have hsame := spillAt_of_same (cleanupDirection_changesOnly hrequest).directory
    hfirst.workingDirectory id
  refine hfirst.trans ?_
  rw [← hsame]
  exact cleanupDirection_alters hresponse

theorem persist_alters (h : s.Sound) (id : ExchangeId) :
    Alters (s.EmergencyAt id) removed made s.disk (s.persist id).disk := by
  obtain ⟨_, hrequest⟩ := h .request id
  obtain ⟨_, hresponse⟩ := persistDirection_sound h id .request .response id
  have hfirst : Alters (s.EmergencyAt id) removed made s.disk
      (s.persistDirection id .request).disk := persistDirection_alters hrequest
  have hsame := emergencyAt_of_same (persistDirection_changesOnly hrequest).directory
    hfirst.workingDirectory id
  refine hfirst.trans ?_
  rw [← hsame]
  exact persistDirection_alters hresponse

theorem archiveInto_alters (h : s.Sound) (id : ExchangeId) (target : Path)
    (preamble : Direction → Bytes) :
    Alters (s.ArtifactAt target) (s.SpillAt id) made s.disk
      (s.archiveInto id target preamble).2.disk := by
  let Moved (s₁ : Store) : Prop := s₁.repository.directory = s.repository.directory
    ∧ Alters (s.ArtifactAt target) (s.SpillAt id) made s.disk s₁.disk
  have hboth : Moved (s.archiveInto id target preamble).2 := by
    refine archiveInto_preserves h ⟨rfl, .refl _⟩ fun s₁ d hsound hmoved => ?_
    obtain ⟨hdirectory, halters⟩ := hmoved
    obtain ⟨_, hk⟩ := hsound d id
    have hc := archiveDirection_changesOnly hk target (preamble d)
    refine ⟨hc.directory.trans hdirectory, halters.trans ?_⟩
    rw [← artifactAt_of_same halters.workingDirectory target,
      ← spillAt_of_same hdirectory halters.workingDirectory id]
    exact archiveDirection_alters hk target (preamble d)
  exact hboth.2

/-! ## §4. Calls. -/

/-- A call on the buffers or on the archive. -/
inductive FileCall
  | write (d : Direction) (id : ExchangeId) (chunk : Bytes)
  | cleanup (id : ExchangeId)
  | persist (id : ExchangeId)
  | archive (base : Path) (r : Record)

namespace FileCall

/-- The exchange that a call is about. -/
def exchange : FileCall → ExchangeId
  | .write _ id _ => id
  | .cleanup id => id
  | .persist id => id
  | .archive _ r => r.id

/-- The places where a call may leave a file: a spill, a file saved in an emergency or an
artifact, right below the directory of the buffers or in the directory of the exchange. -/
def Writes (s : Store) : FileCall → Place → Prop
  | .write d id _, p => p = s.bufferPlace ++ [spillName d id]
  | .cleanup _, _ => False
  | .persist id, p => s.EmergencyAt id p
  | .archive base r, p => shardDepth ≤ r.id.text.length
    ∧ ∃ d, p = s.disk.placeOf base ++ shardNames r.started.date r.id ++ [artifactName d]

/-- The places from which a call may remove a file: those of spills. -/
def Removes (s : Store) : FileCall → Place → Prop
  | .write d id _, p => p = s.bufferPlace ++ [spillName d id]
  | .cleanup id, p => s.SpillAt id p
  | .persist _, _ => False
  | .archive _ r, p => s.SpillAt r.id p

/-- The places where a call may make a directory: on the way to the base of the archive, and
from there down along the date, the characters and the identifier. -/
def Makes (s : Store) : FileCall → Place → Prop
  | .archive base r, p => OnWay (s.disk.origin base) base.steps p
    ∨ ∃ front, front ≠ [] ∧ front <+: shardNames r.started.date r.id
      ∧ p = s.disk.placeOf base ++ front
  | _, _ => False

/-- These places depend on where the directories are, and on nothing else. -/
theorem places_of_same (hdirectory : s'.repository.directory = s.repository.directory)
    (hworking : s'.disk.workingDirectory = s.disk.workingDirectory) (call : FileCall) :
    call.Writes s' = call.Writes s ∧ call.Removes s' = call.Removes s
      ∧ call.Makes s' = call.Makes s := by
  have hbuffers := bufferPlace_of_same hdirectory hworking
  have hspill := spillAt_of_same hdirectory hworking
  have hemergency := emergencyAt_of_same hdirectory hworking
  have hplace := placeOf_of_workingDirectory hworking
  have horigin : ∀ path, s'.disk.origin path = s.disk.origin path := by
    intro path
    unfold origin
    rw [hworking]
  refine ⟨funext fun p => ?_, funext fun p => ?_, funext fun p => ?_⟩
  · cases call <;> simp only [Writes, hbuffers, hemergency, hplace]
  · cases call <;> simp only [Removes, hbuffers, hspill]
  · cases call <;> simp only [Makes, hplace, horigin]

end FileCall

/-- The store after a call. -/
def carryOut (s : Store) : FileCall → Store
  | .write d id chunk => (s.write d id chunk).2
  | .cleanup id => s.cleanup id
  | .persist id => s.persist id
  | .archive base r => (Archive.archive s base r).2

/-- The store after some calls. -/
def carryOutAll (s : Store) (calls : List FileCall) : Store := calls.foldl carryOut s

theorem archive_alters (h : s.Sound) (base : Path) (r : Record) :
    Alters ((FileCall.archive base r).Writes s) ((FileCall.archive base r).Removes s)
      ((FileCall.archive base r).Makes s) s.disk (Archive.archive s base r).2.disk := by
  have hmade : ∀ target, shardDirectory base r.started.date r.id = .ok target →
      Alters ((FileCall.archive base r).Writes s) ((FileCall.archive base r).Removes s)
        ((FileCall.archive base r).Makes s) s.disk (s.withDirectories target).disk := by
    intro target hshard
    obtain ⟨hsafe, -, rfl⟩ := shardDirectory_eq_ok.mp hshard
    exact (makeDirectories_alters s.disk _).mono (fun _ hp => hp) (fun _ hp => hp)
      fun _ hp => onWay_foldl_join (isProper_shardNames hsafe) hp
  rcases archive_cases s base r with ⟨-, hsame | ⟨target, hshard, hdirs⟩⟩
    | ⟨target, metrics, hshard, hs, -⟩
  · rw [hsame]
    exact .refl _
  · rw [hdirs]
    exact hmade target hshard
  · rw [hs]
    have hdirs := hmade target hshard
    have hplace : (s.withDirectories target).disk.placeOf target
        = s.disk.placeOf base ++ shardNames r.started.date r.id := by
      rw [placeOf_of_workingDirectory hdirs.workingDirectory]
      exact place_of_shardDirectory hshard
    have hdirectory : (s.withDirectories target).repository.directory = s.repository.directory :=
      rfl
    have hspill := spillAt_of_same hdirectory hdirs.workingDirectory r.id
    refine hdirs.trans ((archiveInto_alters (withDirectories_sound h target) r.id target
      (preambles r)).mono ?_ ?_ fun _ hp => hp)
    · rintro p ⟨d, hp⟩
      rw [hplace] at hp
      exact ⟨(shardDirectory_eq_ok.mp hshard).2.1, d, hp⟩
    · intro p hp
      rwa [hspill] at hp

/-- **What one call leaves changed**: files and directories at the places of the call. -/
theorem carryOut_alters (h : s.Sound) (call : FileCall) :
    Alters (call.Writes s) (call.Removes s) (call.Makes s) s.disk (s.carryOut call).disk := by
  cases call with
  | write d id chunk =>
      obtain ⟨_, hk⟩ := h d id
      exact write_alters hk chunk
  | cleanup id => exact cleanup_alters h id
  | persist id => exact persist_alters h id
  | archive base r => exact archive_alters h base r

theorem carryOut_changesOnly (h : s.Sound) (call : FileCall) :
    ChangesOnly (KeysOf call.exchange) (FileOf call.exchange) s (s.carryOut call) := by
  cases call with
  | write d id chunk =>
      obtain ⟨_, hk⟩ := h d id
      exact (write_changesOnly hk chunk).mono (fun _ _ hkey => hkey.2) fun _ hp => ⟨d, Or.inl hp⟩
  | cleanup id => exact Journal.cleanup_fileOf h id
  | persist id => exact Journal.persist_fileOf h id
  | archive base r => exact archive_changesOnly h base r

theorem carryOut_sound (h : s.Sound) (call : FileCall) : (s.carryOut call).Sound := by
  cases call with
  | write d id chunk => exact write_sound h d id chunk
  | cleanup id => exact cleanup_sound h id
  | persist id => exact persist_sound h id
  | archive base r => exact archive_sound h base r

/-- Where there is no buffer there is nothing to let go of. -/
theorem cleanup_of_none (hnone : ∀ d, s.repository.buffer? d id = none) : s.cleanup id = s := by
  have hone : ∀ d, s.cleanupDirection id d = s := by
    intro d
    unfold cleanupDirection
    rw [hnone d]
  show (s.cleanupDirection id .request).cleanupDirection id .response = s
  rw [hone .request, hone .response]

theorem persist_of_none (hnone : ∀ d, s.repository.buffer? d id = none) : s.persist id = s := by
  have hone : ∀ d, s.persistDirection id d = s := by
    intro d
    unfold persistDirection
    rw [hnone d]
  show (s.persistDirection id .request).persistDirection id .response = s
  rw [hone .request, hone .response]

/-- An identifier that is no name comes to nothing: the table has no entry of it, and no file
is asked for. -/
theorem carryOut_of_unsafe (h : s.Sound) (call : FileCall)
    (hbad : call.exchange.isPathSafe = false) : s.carryOut call = s := by
  have hsafe : call.exchange.isPathSafe ≠ true := by simp [hbad]
  -- what has a buffer is a name
  have hnone : ∀ d, s.repository.buffer? d call.exchange = none := by
    intro d
    obtain ⟨_, hk⟩ := h d call.exchange
    cases hb : s.repository.buffer? d call.exchange with
    | none => rfl
    | some buffer => exact absurd (hk.isPathSafe_of_some hb) hsafe
  cases call with
  | write d id chunk =>
      rcases s.write_cases d id chunk with ⟨-, hw⟩ | ⟨-, -, -, -, hw⟩ | ⟨-, -, hfirst, -⟩
      · exact congrArg Prod.snd hw
      · exact congrArg Prod.snd hw
      · exact absurd (hfirst (hnone d)) hsafe
  | cleanup id => exact cleanup_of_none hnone
  | persist id => exact persist_of_none hnone
  | archive base r =>
      rcases archive_cases s base r with ⟨-, hsame | ⟨target, hshard, -⟩⟩ | ⟨target, -, hshard, -⟩
      · exact hsame
      · exact absurd (shardDirectory_eq_ok.mp hshard).1 hsafe
      · exact absurd (shardDirectory_eq_ok.mp hshard).1 hsafe

/-! ## §5. Any number of calls. -/

/-- Any number of calls leave a sound store sound, and the directories where they are. -/
theorem carryOutAll_same (h : s.Sound) (calls : List FileCall) :
    (s.carryOutAll calls).Sound
      ∧ (s.carryOutAll calls).repository.directory = s.repository.directory
      ∧ (s.carryOutAll calls).disk.workingDirectory = s.disk.workingDirectory := by
  induction calls generalizing s with
  | nil => exact ⟨h, rfl, rfl⟩
  | cons call rest ih =>
      obtain ⟨hsound, hdirectory, hworking⟩ := ih (carryOut_sound h call)
      exact ⟨hsound, hdirectory.trans (carryOut_changesOnly h call).directory,
        hworking.trans (carryOut_alters h call).workingDirectory⟩

/-- What it means that a call keeps to its places.  They are told from the store `s₀` in which
all began, `s` is the one in which the call is made. -/
structure Confined (s₀ s : Store) (call : FileCall) : Prop where
  /-- Files come, change and go at the places of the call, and directories are made there. -/
  places : Alters (call.Writes s₀) (call.Removes s₀) (call.Makes s₀) s.disk (s.carryOut call).disk
  /-- With an identifier that is empty, or has any character but letters, digits, hyphens and
  underscores, the call does nothing. -/
  refused : (call.exchange.text = "" ∨ ∃ c ∈ call.exchange.text.toList,
    ¬ (Text.isAsciiAlphanumeric c = true ∨ c = '-' ∨ c = '_')) → s.carryOut call = s
  /-- The files of all other exchanges are as they were. -/
  others : ∀ id, id ≠ call.exchange → ∀ p, FileOf id p →
    (s.carryOut call).disk.file? p = s.disk.file? p

/-- What it means that exchanges have files of their own. -/
structure Apart (s : Store) : Prop where
  spills : ∀ {d d' id id'}, id.isPathSafe = true → id'.isPathSafe = true →
    s.spillPlace d id = s.spillPlace d' id' → d = d' ∧ id = id'
  emergencies : ∀ {d d' id id'}, id.isPathSafe = true → id'.isPathSafe = true →
    s.emergencyPlace d id = s.emergencyPlace d' id' → d = d' ∧ id = id'
  spill_ne_emergency : ∀ {d d' id id'}, id.isPathSafe = true → id'.isPathSafe = true →
    s.spillPlace d id ≠ s.emergencyPlace d' id'
  /-- An exchange has a directory if its identifier is a name that is long enough. -/
  directories : ∀ {base date id}, (∃ target, shardDirectory base date id = .ok target)
    ↔ id.isPathSafe = true ∧ shardDepth ≤ id.text.length
  /-- The directories of exchanges lie at one depth below their base. -/
  depth : ∀ {base target date id}, shardDirectory base date id = .ok target →
    (s.disk.placeOf target).length = (s.disk.placeOf base).length + shardDepth + 2
  /-- No directory of an exchange is that of another, or lies in it. -/
  shards : ∀ {base target target' date date' id id'}, shardDirectory base date id = .ok target →
    shardDirectory base date' id' = .ok target' →
    s.disk.placeOf target <+: s.disk.placeOf target' → date = date' ∧ id = id'

theorem isPathSafe_eq_false (h : id.text = "" ∨ ∃ c ∈ id.text.toList,
    ¬ (Text.isAsciiAlphanumeric c = true ∨ c = '-' ∨ c = '_')) : id.isPathSafe = false := by
  refine Bool.eq_false_iff.mpr fun hsafe => ?_
  simp only [ExchangeId.isPathSafe, ExchangeId.isPathSafeChar, Bool.and_eq_true, bne_iff_ne,
    List.all_eq_true, Bool.or_eq_true, beq_iff_eq, or_assoc] at hsafe
  rcases h with hempty | ⟨c, hc, hbad⟩
  · exact hsafe.1 hempty
  · exact hbad (hsafe.2 c hc)

/-- **Exchanges have files of their own**, on every store. -/
theorem apart (s : Store) : s.Apart := by
  constructor
  case spills =>
    intro d d' id id' hsafe hsafe' heq
    rw [spillPlace_eq s hsafe, spillPlace_eq s hsafe'] at heq
    exact spillName_inj (List.singleton_inj.mp (List.append_cancel_left heq))
  case emergencies =>
    intro d d' id id' hsafe hsafe' heq
    rw [emergencyPlace_eq s hsafe, emergencyPlace_eq s hsafe'] at heq
    exact emergencyName_inj (List.singleton_inj.mp (List.append_cancel_left heq))
  case spill_ne_emergency =>
    intro d d' id id' hsafe hsafe' heq
    rw [spillPlace_eq s hsafe, emergencyPlace_eq s hsafe'] at heq
    exact spillName_ne_emergencyName d d' id id'
      (List.singleton_inj.mp (List.append_cancel_left heq))
  case directories =>
    intro base date id
    constructor
    · rintro ⟨target, h⟩
      exact ⟨(shardDirectory_eq_ok.mp h).1, (shardDirectory_eq_ok.mp h).2.1⟩
    · exact fun h => ⟨_, shardDirectory_eq_ok.mpr ⟨h.1, h.2, rfl⟩⟩
  case depth =>
    intro base target date id h
    rw [place_of_shardDirectory h, List.length_append,
      length_shardNames (shardDirectory_eq_ok.mp h).2.1, Nat.add_assoc]
  case shards => exact fun h h' hin => shardDirectory_apart h h' hin

/-- **Files stay where they belong**: after any number of calls from a store without buffers,
whatever the identifiers and whatever the disk answers, the next call keeps to its places, and
exchanges have files of their own. -/
theorem calls_confined (hempty : ∀ d id, s.repository.buffer? d id = none)
    (calls : List FileCall) (call : FileCall) :
    Confined s (s.carryOutAll calls) call ∧ s.Apart := by
  obtain ⟨hsound, hdirectory, hworking⟩ := carryOutAll_same (sound_of_empty hempty) calls
  obtain ⟨hwrites, hremoves, hmakes⟩ := FileCall.places_of_same hdirectory hworking call
  refine ⟨⟨?_, fun hbad => ?_, fun id hid p hp => ?_⟩, s.apart⟩
  · have halters := carryOut_alters hsound call
    rwa [hwrites, hremoves, hmakes] at halters
  · exact carryOut_of_unsafe hsound call (isPathSafe_eq_false hbad)
  · -- a file belongs to one exchange
    exact (carryOut_changesOnly hsound call).disk.file? p fun hp' => hid (hp.unique hp')

/-- A disk with two directories, and buffers that go to one of them. -/
def twoDirectories : Store :=
  ⟨.ofDirectories [["b"], ["a"]] [], ⟨true, .ofText "/b", 2, .both ∅⟩, .zero⟩

/-- Some calls: a buffer that is spilled, one in memory and one that is refused. -/
def someCalls : List FileCall :=
  [.write .request ⟨"abcd"⟩ [1, 2, 3], .write .response ⟨"wxyz"⟩ [1], .write .request ⟨"../x"⟩ [1]]

/-- The record of the first of these exchanges. -/
def firstRecord : Record := Record.new ⟨"abcd"⟩ "GET" "/" ⟨0, 0⟩

/-- The same of a call that archives the first of them, behind these calls. -/
theorem calls_confined_of_archive :
    twoDirectories.Confined (twoDirectories.carryOutAll someCalls)
        (.archive (.ofText "/a") firstRecord)
      ∧ twoDirectories.Apart
      ∧ ((twoDirectories.carryOutAll someCalls).disk.read
          (.ofText "/b/abcd_request.raw")).toOption = some [1, 2, 3] := by
  have hempty : ∀ d id, twoDirectories.repository.buffer? d id = none :=
    Repository.buffer?_of_empty rfl
  obtain ⟨hconfined, hapart⟩ := calls_confined hempty someCalls
    (.archive (.ofText "/a") firstRecord)
  exact ⟨hconfined, hapart, by decide +kernel⟩

/-- To archive is to make directories on the way to the base, too: where its path leads up again,
one comes to be that is neither the base nor the directory of a day, nor below one. -/
theorem archive_makes_directory_beside_base :
    let base : Path := .ofText "/missing/../archive"
    ∃ p, twoDirectories.disk.entry? p = none
      ∧ (twoDirectories.carryOut (.archive base firstRecord)).disk.entry? p = some .directory
      ∧ p ≠ twoDirectories.disk.placeOf base
      ∧ ¬ twoDirectories.disk.placeOf base ++ [firstRecord.started.date.text] <+: p :=
  ⟨["missing"], by decide +kernel, by decide +kernel, by decide +kernel, by decide +kernel⟩

end Wiretap.Store
