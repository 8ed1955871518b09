/-
  Wiretap.Proofs.Alike
  ────────────────────
  **WHAT A SINK SEES OF THE DISK.**

  Two disks are alike but for some places (`Disk.Alike`) when the same stands everywhere
  else, and at those places, where it differs, files on both.  What a sink does to the disk
  it finds stays within such a difference, at the file it adds lines to.  And a sink that
  neither writes nor reads at these places does the same on both disks:

    • `Sink.call_alike` — a call of a sink leaves the disk alike but for its own file,
    • `Sink.call_twin`  — on disks that are alike elsewhere, and answer requests alike, a
                          call of a sink has the same answer and leaves disks as alike.
-/
import Wiretap.Proofs.Dispatch

namespace Wiretap

/-! ## §1. Disks that are alike. -/

namespace Disk

variable {touched touched' : Place → Prop} {d d' d'' : Disk}

/-- Two disks hold the same, but that the files at some places may differ. -/
structure Alike (touched : Place → Prop) (d d' : Disk) : Prop where
  standing : ∀ place, d'.entry? place = d.entry? place
    ∨ touched place ∧ (d.file? place).isSome ∧ (d'.file? place).isSome
  workingDirectory : d'.workingDirectory = d.workingDirectory

/-- Two disks hold the same but for files at some places, and will answer the same. -/
structure Twin (touched : Place → Prop) (d d' : Disk) : Prop extends Alike touched d d' where
  responses : d'.responses = d.responses

theorem isFile_of_isSome {place : Place} (h : (d.file? place).isSome) :
    ∃ stamp content, d.entry? place = some (.file stamp content) := by
  obtain ⟨⟨stamp, content⟩, hfile⟩ := Option.isSome_iff_exists.mp h
  exact ⟨stamp, content, file?_eq_some.mp hfile⟩

namespace Alike

theorem refl (d : Disk) : Alike touched d d := ⟨fun _ => Or.inl rfl, rfl⟩

theorem symm (h : Alike touched d d') : Alike touched d' d := by
  refine ⟨fun place => ?_, h.workingDirectory.symm⟩
  rcases h.standing place with heq | ⟨ht, hd, hd'⟩
  · exact Or.inl heq.symm
  · exact Or.inr ⟨ht, hd', hd⟩

theorem mono (h : Alike touched d d') (hsub : ∀ p, touched p → touched' p) :
    Alike touched' d d' :=
  ⟨fun place => (h.standing place).imp_right fun hdiffers => ⟨hsub place hdiffers.1, hdiffers.2⟩,
    h.workingDirectory⟩

theorem file?_isSome (h : Alike touched d d') (place : Place) :
    (d'.file? place).isSome = (d.file? place).isSome := by
  rcases h.standing place with heq | ⟨-, hd, hd'⟩
  · simp only [file?, heq]
  · rw [hd, hd']

theorem trans (h : Alike touched d d') (h' : Alike touched d' d'') : Alike touched d d'' := by
  refine ⟨fun place => ?_, h'.workingDirectory.trans h.workingDirectory⟩
  rcases h'.standing place with heq' | ⟨ht, hd', hd''⟩
  · rw [heq', show d''.file? place = d'.file? place by simp only [file?, heq']]
    exact h.standing place
  · exact Or.inr ⟨ht, by rw [← h.file?_isSome, hd'], hd''⟩

/-- Away from the places where disks differ the same stands on both. -/
theorem standing_eq (h : Alike touched d d') {place : Place} (hplace : ¬ touched place) :
    d'.entry? place = d.entry? place :=
  (h.standing place).resolve_right fun hdiffers => hplace hdiffers.1

theorem contentOf_eq (h : Alike touched d d') {handle : Handle}
    (hhandle : ¬ touched handle.place) : d'.contentOf handle = d.contentOf handle := by
  simp only [contentOf, h.standing_eq hhandle]

theorem directory (h : Alike touched d d') {place : Place}
    (hdir : d.entry? place = some .directory) : d'.entry? place = some .directory := by
  rcases h.standing place with heq | ⟨-, hd, -⟩
  · rw [heq, hdir]
  · obtain ⟨_, _, hfile⟩ := isFile_of_isSome hd
    rw [hdir] at hfile
    cases hfile

/-- A walk meets the same directories on both disks, and is stopped by the same. -/
theorem walk_eq (h : Alike touched d d') (here : Place) (steps : List String) :
    d'.walk here steps = d.walk here steps := by
  fun_induction walk d here steps with
  | case1 here => rfl
  | case2 here step rest hnone =>
      rcases h.standing here with heq | ⟨-, hd, -⟩
      · simp only [walk, heq, hnone]
      · obtain ⟨_, _, hfile⟩ := isFile_of_isSome hd
        rw [hnone] at hfile
        cases hfile
  | case3 here step rest stamp content hfile =>
      -- a file that stands in the way may be another one, but it is a file
      rcases h.standing here with heq | ⟨-, -, hd'⟩
      · simp only [walk, heq, hfile]
      · obtain ⟨_, _, hfile'⟩ := isFile_of_isSome hd'
        simp only [walk, hfile']
  | case4 here rest hdir ih =>
      simp only [walk, h.directory hdir, if_true]
      exact ih
  | case5 here rest hdir hne ih =>
      simp only [walk, h.directory hdir, if_neg hne, if_true]
      exact ih
  | case6 here step rest hdir h1 h2 hlong =>
      simp only [walk, h.directory hdir, if_neg h1, if_neg h2, if_pos hlong]
  | case7 here step rest hdir h1 h2 hlong ih =>
      simp only [walk, h.directory hdir, if_neg h1, if_neg h2, if_neg hlong]
      exact ih

theorem locate_eq (h : Alike touched d d') (path : Path) : d'.locate path = d.locate path := by
  simp only [locate, origin, h.workingDirectory, h.walk_eq]

/-- What a path leads to is the same, unless it leads to where the disks differ. -/
theorem find_eq (h : Alike touched d d') {path : Path}
    (hpath : ∀ place, d.locate path = .ok place → ¬ touched place) :
    d'.find path = d.find path := by
  unfold find
  rw [h.locate_eq]
  cases hlocate : d.locate path with
  | error fault => rfl
  | ok place =>
      simp only [bind, Except.bind]
      rw [h.standing_eq (hpath place hlocate)]

/-- The same may be put at a place on both disks. -/
theorem put (h : Alike touched d d') {place : Place} (hne : place ≠ []) (entry : Entry) :
    Alike touched (d.put place entry) (d'.put place entry) := by
  refine ⟨fun p => ?_, h.workingDirectory⟩
  simp only [file?, lookup_put hne]
  by_cases hp : p = place
  · left
    simp only [if_pos hp]
  · simp only [if_neg hp]
    exact h.standing p

end Alike

/-- A write leaves the disk alike but for the file that its handle was opened on. -/
theorem write_alike (d : Disk) (limit : Nat) (handle : Handle) (offset : Nat) (data : Bytes) :
    Alike (· = handle.place) d (d.write limit handle offset data).2 := by
  suffices happly : ∀ attempts, Alike (· = handle.place) d (d.apply handle attempts) from
    ⟨(happly _).standing, (happly _).workingDirectory⟩
  intro attempts
  unfold apply
  split
  next content hcontent =>
    have hfile := contentOf_eq_some.mp hcontent
    have hne := place_ne_nil_of_file? hfile
    refine ⟨fun p => ?_, rfl⟩
    by_cases hp : p = handle.place
    · refine Or.inr ⟨hp, ?_, ?_⟩
      · rw [hp, hfile]
        rfl
      · simp [file?, lookup_put hne, hp]
    · left
      rw [lookup_put hne, if_neg hp]
  next => exact .refl d

/-- A write to a file that is the same on both disks lands the same on both. -/
theorem write_twin (h : Twin touched d d') {handle : Handle} (hhandle : ¬ touched handle.place)
    (limit offset : Nat) (data : Bytes) :
    (d'.write limit handle offset data).1 = (d.write limit handle offset data).1
      ∧ Twin touched (d.write limit handle offset data).2
        (d'.write limit handle offset data).2 := by
  have happly : ∀ attempts, Alike touched (d.apply handle attempts)
      (d'.apply handle attempts) := by
    intro attempts
    simp only [apply, h.contentOf_eq hhandle]
    split
    next content hcontent =>
      exact h.toAlike.put (place_ne_nil_of_file? (contentOf_eq_some.mp hcontent)) _
    next => exact h.toAlike
  simp only [write, h.responses, true_and]
  exact ⟨⟨(happly _).standing, (happly _).workingDirectory⟩, rfl⟩

end Disk

/-! ## §2. Bodies and lines. -/

/-- A sink reads at a place: a body that it tells the text of is there. -/
def Sink.ReadsAt (s : Sink) (disk : Disk) (r : Record) (place : Place) : Prop :=
  match s.action with
  | .appendLine _ detail => detail.included = true ∧ ∃ b path,
      (r.requestBody = some b ∨ r.responseBody = some b) ∧ b.path? = some path
        ∧ disk.locate path = .ok place
  | _ => False

open Disk

variable {touched : Place → Prop} {disk disk' : Disk}

theorem Body.firstBytes_alike (h : Alike touched disk disk') {b : Body}
    (hb : ∀ path place, b.path? = some path → disk.locate path = .ok place → ¬ touched place)
    (limit : UInt64) : b.firstBytes disk' limit = b.firstBytes disk limit := by
  obtain ⟨source, coding⟩ := b
  cases source with
  | memory bytes => rfl
  | file path length =>
      have hfind : disk'.find path = disk.find path :=
        h.find_eq fun place => hb path place rfl
      simp only [firstBytes, probe, openFault, raw, readUpTo, hfind]

namespace AccessLine

variable {detail : BodyDetail} {r : Record}

theorem body_alike (h : Alike touched disk disk') {body? : Option Body}
    (hbody : detail.included = true → ∀ b path place, body? = some b → b.path? = some path →
      disk.locate path = .ok place → ¬ touched place) :
    body detail disk' body? = body detail disk body? := by
  unfold body
  split
  next => rfl
  next b =>
    split
    next hincluded =>
      rw [b.firstBytes_alike h fun path place => hbody hincluded b path place rfl]
    next => rfl

/-- The line of a record is the same where no body is read from where the disks differ. -/
theorem line_alike (h : Alike touched disk disk')
    (hbodies : detail.included = true → ∀ b path place,
      r.requestBody = some b ∨ r.responseBody = some b → b.path? = some path →
      disk.locate path = .ok place → ¬ touched place) :
    line detail disk' r = line detail disk r := by
  have hrequest : body detail disk' r.requestBody = body detail disk r.requestBody :=
    body_alike h fun hi b path place hb => hbodies hi b path place (Or.inl hb)
  have hresponse : body detail disk' r.responseBody = body detail disk r.responseBody :=
    body_alike h fun hi b path place hb => hbodies hi b path place (Or.inr hb)
  simp only [line, value, hrequest, hresponse]

end AccessLine

/-! ## §3. Sinks. -/

namespace Sink

variable {s : Sink} {r : Record}

/-- **A call of a sink leaves the disk alike but for the file of the sink.** -/
theorem call_alike (s : Sink) (disk : Disk) (r : Record) :
    Alike (fun place => s.place? = some place) disk (s.call disk r).disk := by
  refine (s.call_keeps r (fun handle hplace d offset data hkept => ?_) (.refl disk)).1
  refine hkept.trans ((write_alike d 1 handle offset data).mono ?_)
  rintro place rfl
  exact hplace

/-- **On disks that are alike elsewhere, and answer alike, a call of a sink is the same.** -/
theorem call_twin (h : Twin touched disk disk')
    (hplace : ∀ place, s.place? = some place → ¬ touched place)
    (hreads : ∀ place, s.ReadsAt disk r place → ¬ touched place) :
    ∃ d', s.call disk' r = { s.call disk r with disk := d' }
      ∧ Twin touched (s.call disk r).disk d' := by
  refine (call_related h fun file detail haction => ⟨⟨?_, ?_⟩, ?_⟩).1
  · intro d d' hd
    exact hd.contentOf_eq (hplace _ (place?_of_appendLine haction))
  · intro d d' hd offset data
    exact write_twin hd (hplace _ (place?_of_appendLine haction)) 1 offset data
  · refine AccessLine.line_alike h.toAlike fun hincluded b path place hb hpath hlocate => ?_
    refine hreads place ?_
    simp only [ReadsAt, haction]
    exact ⟨hincluded, b, path, hb, hpath, hlocate⟩

end Sink

end Wiretap
