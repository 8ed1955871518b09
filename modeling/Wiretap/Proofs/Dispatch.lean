/-
  Wiretap.Proofs.Dispatch
  ───────────────────────
  **WHAT SINKS CHANGE.**

  Sinks look at bodies and add lines to their own files.  Whatever they answer, a call of
  one leaves the repository as it is and changes no file but its own (`Journal.Beside`), so
  that a record is carried past the store until it ends.

    • `Sink.call_related` — a call does the same on disks that a file looks the same on,
    • `Journal.enter_eq`, `Journal.leave_eq` — a dispatch begins and ends with the state.
-/
import Wiretap.Log.Delegate
import Wiretap.Proofs.Files

namespace Wiretap

/-! ## §1. Line files. -/

section Related

variable {handle : Handle} {related : Disk → Disk → Prop} {disk disk' : Disk}

/-- Disks that are related hold the same in an open file, and writes to it land the same on
them and leave them related. -/
structure Disk.Tracks (handle : Handle) (related : Disk → Disk → Prop) : Prop where
  content : ∀ {d d'}, related d d' → d'.contentOf handle = d.contentOf handle
  write : ∀ {d d'}, related d d' → ∀ offset data,
    (d'.write 1 handle offset data).1 = (d.write 1 handle offset data).1
      ∧ related (d.write 1 handle offset data).2 (d'.write 1 handle offset data).2

/-- A disk is so related to itself as long as it keeps what writes to the file keep. -/
theorem Disk.Tracks.self {keeps : Disk → Prop}
    (h : ∀ d offset data, keeps d → keeps (d.write 1 handle offset data).2) :
    Disk.Tracks handle fun d d' => d' = d ∧ keeps d := by
  refine ⟨?_, ?_⟩
  · rintro _ d ⟨rfl, -⟩
    rfl
  · rintro _ d ⟨rfl, hkeeps⟩ offset data
    exact ⟨rfl, rfl, h d offset data hkeeps⟩

namespace LineFile

variable {f : LineFile}

theorem append_related (h : Disk.Tracks handle related) (hd : related disk disk')
    (hf : f.handle = handle) (data : Bytes) :
    ∃ outcome left d d', f.append disk data = (outcome, left, d)
      ∧ f.append disk' data = (outcome, left, d') ∧ related d d' := by
  obtain ⟨hlanding, hwritten⟩ :=
    h.write hd ((disk.contentOf handle).getD []).length data
  unfold append
  simp only [hf, h.content hd, hlanding]
  split
  next => exact ⟨_, _, _, _, rfl, rfl, hwritten⟩
  next => exact ⟨_, _, _, _, rfl, rfl, hwritten⟩
  next => exact ⟨_, _, _, _, rfl, rfl, hwritten⟩

theorem flush_related (h : Disk.Tracks handle related) (hd : related disk disk')
    (hf : f.handle = handle) :
    ∃ outcome g d d', f.flush disk = (outcome, g, d) ∧ f.flush disk' = (outcome, g, d')
      ∧ g.handle = handle ∧ related d d' := by
  obtain ⟨outcome, left, d, d', happend, happend', hrelated⟩ := append_related h hd hf f.pending
  simp only [flush, happend, happend']
  exact ⟨_, _, _, _, rfl, rfl, hf, hrelated⟩

theorem put_related (h : Disk.Tracks handle related) (hd : related disk disk')
    (hf : f.handle = handle) (line : Bytes) :
    ∃ outcome g d d', f.put disk line = (outcome, g, d) ∧ f.put disk' line = (outcome, g, d')
      ∧ g.handle = handle ∧ related d d' := by
  unfold put
  by_cases hroom : line.length < capacity - f.pending.length
  · simp only [if_pos hroom]
    exact ⟨_, _, _, _, rfl, rfl, hf, hd⟩
  · simp only [if_neg hroom]
    -- the buffer is flushed on both disks or on neither
    obtain ⟨outcome, g, d, d', hmade, hmade', hg, hrelated⟩ : ∃ outcome g d d',
        (if capacity - f.pending.length < line.length then f.flush disk else (.ok (), f, disk))
          = (outcome, g, d)
        ∧ (if capacity - f.pending.length < line.length then f.flush disk'
            else (.ok (), f, disk')) = (outcome, g, d')
        ∧ g.handle = handle ∧ related d d' := by
      by_cases hover : capacity - f.pending.length < line.length
      · simp only [if_pos hover]
        exact flush_related h hd hf
      · simp only [if_neg hover]
        exact ⟨_, _, _, _, rfl, rfl, hf, hd⟩
    simp only [hmade, hmade']
    cases outcome with
    | error fault => exact ⟨_, _, _, _, rfl, rfl, hg, hrelated⟩
    | ok =>
        obtain ⟨last, left, e, e', happend, happend', hrelated'⟩ :=
          append_related h hrelated hg line
        by_cases hlong : capacity ≤ line.length
        · simp only [if_pos hlong, happend, happend']
          exact ⟨_, _, _, _, rfl, rfl, hg, hrelated'⟩
        · simp only [if_neg hlong]
          exact ⟨_, _, _, _, rfl, rfl, hg, hrelated⟩

/-- A line is written alike on disks that are related. -/
theorem writeLine_related (h : Disk.Tracks handle related) (hd : related disk disk')
    (hf : f.handle = handle) (line : Bytes) :
    ∃ outcome g d d', f.writeLine disk line = (outcome, g, d)
      ∧ f.writeLine disk' line = (outcome, g, d') ∧ g.handle = handle ∧ related d d' := by
  obtain ⟨outcome, g, d, d', hput, hput', hg, hrelated⟩ := put_related h hd hf line
  simp only [writeLine, hput, hput']
  cases outcome with
  | error fault => exact ⟨_, _, _, _, rfl, rfl, hg, hrelated⟩
  | ok => exact flush_related h hrelated hg

theorem writeLine_handle (f : LineFile) (disk : Disk) (line : Bytes) :
    (f.writeLine disk line).2.1.handle = f.handle := by
  have hself : Disk.Tracks f.handle fun d d' => d' = d ∧ True := .self fun _ _ _ _ => trivial
  obtain ⟨outcome, g, d, d', hwrite, -, hg, -⟩ := writeLine_related hself ⟨rfl, trivial⟩ rfl line
  rw [hwrite]
  exact hg

end LineFile

/-! ## §2. Sinks. -/

namespace Sink

variable {s : Sink} {r : Record}

/-- The place of the file that a sink writes to, if it does. -/
def place? (s : Sink) : Option Place :=
  match s.action with
  | .appendLine file _ => some file.handle.place
  | _ => none

theorem place?_of_appendLine {file : LineFile} {detail : BodyDetail}
    (h : s.action = .appendLine file detail) : s.place? = some file.handle.place := by
  simp only [place?, h]

/-- A sink is called alike on disks that are related, if the line that it adds is the same; its
file stays the same one. -/
theorem call_related (hd : related disk disk')
    (h : ∀ file detail, s.action = .appendLine file detail →
      Disk.Tracks file.handle related
        ∧ AccessLine.line detail disk' r = AccessLine.line detail disk r) :
    (∃ d', s.call disk' r = { s.call disk r with disk := d' }
        ∧ related (s.call disk r).disk d')
      ∧ (s.call disk r).sink.place? = s.place? := by
  unfold call
  split
  next => exact ⟨⟨disk', rfl, hd⟩, rfl⟩
  next => exact ⟨⟨disk', rfl, hd⟩, rfl⟩
  next file detail haction =>
    obtain ⟨htracks, hline⟩ := h file detail haction
    obtain ⟨answer, g, d, d', hadd, hadd', hg, hrelated⟩ : ∃ answer g d d',
        addLine s.name file detail disk r = (answer, g, d)
        ∧ addLine s.name file detail disk' r = (answer, g, d')
        ∧ g.handle = file.handle ∧ related d d' := by
      unfold addLine
      rw [hline]
      split
      next => exact ⟨_, _, _, _, rfl, rfl, rfl, hd⟩
      next line _ =>
        obtain ⟨outcome, g, d, d', hwrite, hwrite', hg, hrelated⟩ :=
          file.writeLine_related htracks hd rfl line
        rw [hwrite, hwrite']
        cases outcome with
        | error fault => exact ⟨_, _, _, _, rfl, rfl, hg, hrelated⟩
        | ok => exact ⟨_, _, _, _, rfl, rfl, hg, hrelated⟩
    rw [hadd, hadd', place?_of_appendLine haction, ← hg]
    exact ⟨⟨d', rfl, hrelated⟩, rfl⟩

/-- What writes to the file of a sink keep, a call of the sink keeps. -/
theorem call_keeps {keeps : Disk → Prop} (s : Sink) (r : Record)
    (hwrite : ∀ handle, s.place? = some handle.place → ∀ d offset data,
      keeps d → keeps (d.write 1 handle offset data).2)
    (hdisk : keeps disk) :
    keeps (s.call disk r).disk ∧ (s.call disk r).sink.place? = s.place? := by
  have hself : (fun d d' : Disk => d' = d ∧ keeps d) disk disk := ⟨rfl, hdisk⟩
  obtain ⟨⟨-, -, -, hkept⟩, hplace⟩ := call_related (s := s) (r := r) hself
    fun file detail haction => ⟨.self (hwrite file.handle (place?_of_appendLine haction)), rfl⟩
  exact ⟨hkept, hplace⟩

/-- A call of a sink changes the file of the sink, which stays the same one. -/
theorem call_changesOnly (s : Sink) (disk : Disk) (r : Record) :
    Disk.ChangesOnly (fun p => s.place? = some p) disk (s.call disk r).disk
      ∧ (s.call disk r).sink.place? = s.place? := by
  refine s.call_keeps r (fun handle hplace d offset data hkept => ?_) (.refl disk)
  refine hkept.trans ((d.write_changesOnly 1 handle offset data).mono ?_)
  rintro p rfl
  exact hplace

end Sink

end Related

/-- The files that the sinks of a logger write to. -/
def Delegate.LogsTo (d : Delegate) (place : Place) : Prop := some place ∈ d.sinks.map Sink.place?

/-! ## §3. Journals. -/

namespace Journal

variable {j j' j'' : Journal}

/-- From one journal to a later one the repository is the same, and only the files of the
sinks changed, which are the same ones. -/
structure Beside (j j' : Journal) : Prop where
  repository : j'.store.repository = j.store.repository
  disk : Disk.ChangesOnly j.delegate.LogsTo j.store.disk j'.store.disk
  places : j'.delegate.sinks.map Sink.place? = j.delegate.sinks.map Sink.place?

namespace Beside

theorem refl (j : Journal) : Beside j j := ⟨rfl, .refl _, rfl⟩

theorem trans (h : Beside j j') (h' : Beside j' j'') : Beside j j'' := by
  refine ⟨h'.repository.trans h.repository, h.disk.trans (h'.disk.mono fun p hp => ?_),
    h'.places.trans h.places⟩
  show some p ∈ j.delegate.sinks.map Sink.place?
  rw [← h.places]
  exact hp

/-- There are as many sinks as before. -/
theorem sinks_length (h : Beside j j') :
    j'.delegate.sinks.length = j.delegate.sinks.length := by
  have hlength := congrArg List.length h.places
  rwa [List.length_map, List.length_map] at hlength

/-- What leaves store and sinks alone, up to the counters. -/
theorem of_same (hr : j'.store.repository = j.store.repository)
    (hd : j'.store.disk = j.store.disk) (hs : j'.delegate.sinks = j.delegate.sinks) :
    Beside j j' := by
  refine ⟨hr, ?_, ?_⟩
  · rw [hd]
    exact .refl _
  · rw [hs]

end Beside

/-- A dispatch begins: it is counted, and an idle logger with none under way gets busy. -/
theorem enter_eq (j : Journal) : j.enter = { j with delegate := { j.delegate with
    state := if j.delegate.inFlight = 0 ∧ j.delegate.state = .idle then .dispatching
      else j.delegate.state
    inFlight := j.delegate.inFlight + 1 } } := by
  unfold enter exchangeState
  by_cases hnone : j.delegate.inFlight = 0
  · by_cases hidle : j.delegate.state = .idle
    · simp [hnone, hidle]
    · simp [hnone, hidle]
  · simp [hnone]

/-- A dispatch ends: it counts no more, and a busy logger with no other under way gets idle. -/
theorem leave_eq (j : Journal) : j.leave = { j with delegate := { j.delegate with
    state := if j.delegate.inFlight = 1 ∧ j.delegate.state = .dispatching then .idle
      else j.delegate.state
    inFlight := j.delegate.inFlight - 1 } } := by
  unfold leave exchangeState
  by_cases hlast : j.delegate.inFlight = 1
  · by_cases hbusy : j.delegate.state = .dispatching
    · simp [hlast, hbusy]
    · simp [hlast, hbusy]
  · simp [hlast]

/-- Whichever listeners panic, each of them is told. -/
theorem notify_eq (j : Journal) (r : Record) (result : SinkResult) :
    j.notify r result = j.note (j.delegate.listeners.map (.heard · r.id result)) := by
  unfold notify
  rw [List.map_eq_flatMap]
  rfl

theorem note_beside (j : Journal) (notices : List Notice) : Beside j (j.note notices) :=
  .of_same rfl rfl rfl

theorem callSink_beside (j : Journal) (r : Record) (index : Nat) :
    Beside j (j.callSink r index).2 := by
  unfold callSink
  split
  next => exact .refl j
  next sink hsink =>
    obtain ⟨hcall, hplace⟩ := sink.call_changesOnly j.store.disk r
    have hmem : sink.place? ∈ j.delegate.sinks.map Sink.place? :=
      List.mem_map_of_mem (List.mem_of_getElem? hsink)
    refine ⟨rfl, hcall.mono fun p hp => ?_, ?_⟩
    · show some p ∈ j.delegate.sinks.map Sink.place?
      rw [← hp]
      exact hmem
    · show (j.delegate.sinks.set index (sink.call j.store.disk r).sink).map Sink.place? = _
      rw [List.map_set, hplace]
      -- the sink that was called is put back where it stood
      have hself : (j.delegate.sinks.map Sink.place?)[index]? = some sink.place? := by
        rw [List.getElem?_map, hsink]
        rfl
      obtain ⟨hlt, hget⟩ := List.getElem?_eq_some_iff.mp hself
      rw [← hget]
      exact List.set_getElem_self hlt

end Journal

end Wiretap
