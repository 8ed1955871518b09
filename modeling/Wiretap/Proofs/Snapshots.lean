/-
  Wiretap.Proofs.Snapshots
  ────────────────────────
  **A BODY IS A SNAPSHOT.**

  A body that was taken from the store is a copy of bytes in memory, or the path of a spill and
  the length that it had.  Until the exchange is let go of, its spill is only ever extended at
  the end, also by writes that fail part way.  So whatever is done meanwhile, the body reads back
  as what the buffer held when it was taken:

    • `Keeps.call`       — a call adds to what an entry keeps, or lets go of its exchange,
    • `Later.grown`      — any number of calls that do not let go of it,
    • `body_is_snapshot` — bodies taken from any store that calls lead to.
-/
import Wiretap.Proofs.Ledger
import Wiretap.Proofs.Settling

namespace Wiretap

/-- The bytes of a buffer: those in memory, or all that is in the file which its spill holds
open. -/
def Buffer.contents? (disk : Disk) : Buffer → Option Bytes
  | .inMemory bytes => some bytes
  | .onDisk spill => disk.contentOf spill.handle

namespace Store

variable {s s' s'' : Store} {d : Direction} {id : ExchangeId} {bytes : Bytes} {buffer : Buffer}

/-! ## §1. While an exchange is held. -/

/-- From one store to a later one, by calls that do not let go of an exchange: writes to it, and
anything that is about others.  The calls may fail, and the disk may change its mind about what
it answers; beside the calls files may come and go that are no spills. -/
inductive Later (id : ExchangeId) (s : Store) : Store → Prop
  | now : Later id s s
  | call {s' : Store} (h : Later id s s') (call : Call) (hkeep : call.releases id = false) :
      Later id s (s'.perform call).2
  | beside {s' s'' : Store} {files : Place → Prop} (h : Later id s s')
      (hspills : SpillsOf (fun _ _ => False) files)
      (hdisk : Disk.ChangesOnly files s'.disk s''.disk) (hr : s''.repository = s'.repository) :
      Later id s s''

/-- To archive another exchange, directories and all, is to do what is not about this one. -/
theorem Later.archive (h : Later id s s') (base : Path) (r : Record) (hother : r.id ≠ id) :
    Later id s (Archive.archive s' base r).2 := by
  have hdirs (path : Path) : Later id s (s'.withDirectories path) := by
    have hmade : Disk.ChangesOnly (fun _ => False) s'.disk (s'.withDirectories path).disk :=
      Disk.makeDirectories_changesOnly s'.disk path
    exact h.beside (fun _ _ _ _ hf => hf) hmade rfl
  rcases archive_cases s' base r with ⟨-, hsame | ⟨path, -, hmade⟩⟩ | ⟨target, metrics, -, hs, -⟩
  · rw [hsame]
    exact h
  · rw [hmade]
    exact hdirs path
  · rw [hs]
    have hinto := (hdirs target).call (.archiveInto r.id target (preambles r))
      (beq_eq_false_iff_ne.mpr hother)
    -- what is left is to count it
    have hcounted : Disk.ChangesOnly (fun _ => False)
        ((s'.withDirectories target).perform (.archiveInto r.id target (preambles r))).2.disk
        ((s'.withDirectories target).archiveInto r.id target (preambles r)).2.disk :=
      .of_entries rfl rfl
    exact hinto.beside (fun _ _ _ _ hf => hf) hcounted rfl

/-! ## §2. What is kept only grows. -/

/-- A call that does not let go of an exchange leaves what its entries keep, with what was added
behind it. -/
theorem Keeps.call (hs : s.Sound) (he : s.repository.enabled = true) (h : s.Keeps d id bytes)
    (call : Call) (hkeep : call.releases id = false) :
    ∃ more, (s.perform call).2.Keeps d id (bytes ++ more) := by
  by_cases hkey : call.concerns d id = true
  · obtain ⟨chunk, rfl⟩ := Call.eq_write hkey hkeep
    -- of a chunk that could not be written, the first bytes may have landed
    obtain ⟨landed, -, hkeeps, -⟩ := write_keeps he h chunk
    exact ⟨landed, hkeeps⟩
  · refine ⟨[], ?_⟩
    rw [List.append_nil]
    exact h.away call.spillsOf (perform_changesOnly hs call) fun ht =>
      hkey (Call.touches_iff.mp ht)

/-- What is true of a later store: an entry keeps what it kept and maybe more, and files are
where they were. -/
structure Grown (s s' : Store) (d : Direction) (id : ExchangeId) (bytes : Bytes) : Prop where
  sound : s'.Sound
  enabled : s'.repository.enabled = true
  directory : s'.repository.directory = s.repository.directory
  threshold : s'.repository.threshold = s.repository.threshold
  keeps : ∃ more, s'.Keeps d id (bytes ++ more)

/-- **While an exchange is held, what its entries keep only grows**, and only at the end. -/
theorem Later.grown (hs : s.Sound) (he : s.repository.enabled = true) (h : s.Keeps d id bytes)
    (hlater : Later id s s') : Grown s s' d id bytes := by
  -- by induction on the steps
  induction hlater with
  | now => exact ⟨hs, he, rfl, rfl, [], by rwa [List.append_nil]⟩
  | call _ call hkeep ih =>
      have hc := perform_changesOnly ih.sound call
      obtain ⟨more, hmore⟩ := ih.keeps
      obtain ⟨added, hadded⟩ := hmore.call ih.sound ih.enabled call hkeep
      rw [List.append_assoc] at hadded
      exact ⟨perform_sound ih.sound call, hc.enabled.trans ih.enabled,
        hc.directory.trans ih.directory, hc.threshold.trans ih.threshold, more ++ added, hadded⟩
  | @beside s' s'' files _ hspills hdisk hr ih =>
      have hc : ChangesOnly (fun _ _ => False) files s' s'' := .of_disk hdisk hr
      obtain ⟨more, hmore⟩ := ih.keeps
      exact ⟨ih.sound.change hspills hc fun _ _ hkey => hkey.elim, hc.enabled.trans ih.enabled,
        hc.directory.trans ih.directory, hc.threshold.trans ih.threshold, more,
        hmore.away hspills hc not_false⟩

/-! ## §3. Bodies. -/

/-- The bytes that an entry keeps are those of its buffer. -/
theorem Keeps.contents? (h : s.Keeps d id bytes)
    (hb : s.repository.buffer? d id = some buffer) : buffer.contents? s.disk = some bytes := by
  have hholds := h.holds hb
  cases buffer with
  | inMemory held => exact congrArg some hholds.1
  | onDisk spill =>
      obtain ⟨-, hbacked, -⟩ := hholds
      exact Disk.contentOf_eq_some.mpr (Disk.find_eq_file.mp hbacked.find).2.1

/-- In a later store a spill has its old bytes first. -/
theorem Grown.readUpTo (h : Grown s s' d id bytes) {spill : Spill}
    (hholds : (Buffer.onDisk spill).Holds s.disk s.repository.threshold
      (s.repository.bufferPath d id) bytes) :
    s'.disk.readUpTo spill.path spill.offset = .ok bytes := by
  obtain ⟨hpath, hbacked, hlong⟩ := hholds
  obtain ⟨more, hkeeps⟩ := h.keeps
  have hsame : s'.repository.bufferPath d id = s.repository.bufferPath d id := by
    simp only [Repository.bufferPath, h.directory]
  have hlonger : s'.repository.threshold < (bytes ++ more).length := by
    rw [h.threshold, List.length_append]
    omega
  have hsome := hkeeps.isSome_iff.mpr (List.ne_nil_of_length_pos (Nat.zero_lt_of_lt hlonger))
  obtain ⟨buffer', hb'⟩ := Option.isSome_iff_exists.mp hsome
  have hholds' := hkeeps.holds hb'
  cases buffer' with
  | inMemory held => exact absurd hholds'.2 (Nat.not_le_of_lt hlonger)
  | onDisk spill' =>
      obtain ⟨hpath', hbacked', -⟩ := hholds'
      have hfind := hbacked'.find
      rw [hpath', hsame, ← hpath] at hfind
      -- the body asks for as many bytes as there were, and they are in front
      simp only [Disk.readUpTo, hfind, hbacked.offset, bind, Except.bind,
        List.take_left]

/-- A body that was taken from an entry reads back in a later store. -/
theorem Grown.raw (h : Grown s s' d id bytes) (hk : s.Keeps d id bytes)
    (hb : s.repository.buffer? d id = some buffer) (coding : ContentCoding) :
    (bodyOf coding buffer).size = bytes.length
      ∧ (bodyOf coding buffer).raw s'.disk = .ok bytes := by
  have hholds := hk.holds hb
  cases buffer with
  | inMemory held =>
      obtain ⟨rfl, -⟩ := hholds
      exact ⟨rfl, rfl⟩
  | onDisk spill => exact ⟨hholds.2.1.offset, h.readUpTo hholds⟩

/-- **A body is a snapshot.**  In every store that calls lead to, whatever the disk answered, a
body that is taken from the buffer of a key stands for the bytes of this buffer.  In every later
store, as long as the exchange was not let go of, its size is still their number and it reads
back as them: after writes to the key, one that spills it and ones that fail part way among them,
and after anything that is done to other exchanges. -/
theorem body_is_snapshot (hs : s.Reachable) {coding : Option String} {body : Body}
    (hget : s.get d id coding = some body) :
    ∃ buffer bytes, s.repository.buffer? d id = some buffer
      ∧ buffer.contents? s.disk = some bytes
      ∧ ∀ s', Later id s s' → body.size = bytes.length ∧ body.raw s'.disk = .ok bytes := by
  unfold get at hget
  split at hget
  next he =>
    obtain ⟨buffer, hb, rfl⟩ := Option.map_eq_some_iff.mp hget
    obtain ⟨bytes, hk⟩ := hs.sound d id
    exact ⟨buffer, bytes, hb, hk.contents? hb, fun s' hlater =>
      (hlater.grown hs.sound he hk).raw hk hb _⟩
  next => cases hget

/-- A spill of three bytes, on a disk that takes one more byte and then refuses. -/
def fillingUp : Store :=
  ((⟨{ Disk.ofDirectories [["b"], ["a"]] [] with
      responses := [.comply, .comply, .short 1, .refuse .storageFull] },
    ⟨true, .ofText "/b", 2, .both ∅⟩, .zero⟩ : Store).write .request ⟨"x"⟩ [1, 2, 3]).2

/-- The same of the body of this spill: a chunk is written of which one byte lands, and another
exchange comes and is archived. -/
theorem body_is_snapshot_of_filling_up :
    let body : Body := ⟨.file ((Path.ofText "/b").join "x_request.raw") 3, .identity⟩
    let failed := (fillingUp.perform (.write .request ⟨"x"⟩ [4, 5])).2
    let other := (failed.perform (.write .response ⟨"abcd"⟩ [9])).2
    let archived := (Archive.archive other (.ofText "/a") (Record.new ⟨"abcd"⟩ "GET" "/" ⟨0, 0⟩)).2
    fillingUp.get .request ⟨"x"⟩ none = some body
      ∧ archived.disk.read ((Path.ofText "/b").join "x_request.raw") = .ok [1, 2, 3, 4]
      ∧ body.size = 3 ∧ body.raw archived.disk = .ok [1, 2, 3] := by
  intro body failed other archived
  have hs : fillingUp.Reachable :=
    (Reachable.start (Repository.buffer?_of_empty rfl)).call (.write .request ⟨"x"⟩ [1, 2, 3])
  have hget : fillingUp.get .request ⟨"x"⟩ none = some body := by decide +kernel
  have hlater : Later ⟨"x"⟩ fillingUp archived :=
    ((Later.now.call (.write .request ⟨"x"⟩ [4, 5]) rfl).call (.write .response ⟨"abcd"⟩ [9])
      rfl).archive (.ofText "/a") _ (by decide)
  obtain ⟨buffer, bytes, hb, hcontents, hsnapshot⟩ := body_is_snapshot hs hget
  have hbytes : (fillingUp.repository.buffer? .request ⟨"x"⟩).bind
      (Buffer.contents? fillingUp.disk) = some [1, 2, 3] := by decide +kernel
  rw [hb] at hbytes
  obtain rfl : bytes = [1, 2, 3] := Option.some.inj (hcontents.symm.trans hbytes)
  exact ⟨hget, by decide +kernel, hsnapshot archived hlater⟩

end Store

end Wiretap
