/-
  Wiretap.Proofs.Files
  ────────────────────
  **WHAT A REQUEST TO THE DISK CAN CHANGE.**

  Every request leaves all files alone but those at places it names, and no request of the
  capture makes a directory vanish.  Both are told by one relation, `ChangesOnly`; a path
  that led somewhere before such a change leads there after it (`locate_of_changesOnly`).
  Each request then has what it does at its own place:

    • `openFile_ok`   — a file that was opened stands where its path leads,
    • `file?_write`   — a write at the end of a file extends it by what landed,
    • `removeFile_ok` — a file that was removed is gone.
-/
import Wiretap.Proofs.Landing

namespace Wiretap.Disk

variable {d d' d'' : Disk} {touched touched' : Place → Prop}

/-! ## §1. Files and the places that changed. -/

/-- The file at a place, as its stamp and its content. -/
def file? (d : Disk) (place : Place) : Option (Nat × Bytes) :=
  match d.entry? place with
  | some (.file stamp content) => some (stamp, content)
  | _ => none

/-- From one disk to a later one, only files at some places changed.  Directories may have
been added, and none is gone. -/
structure ChangesOnly (touched : Place → Prop) (d d' : Disk) : Prop where
  file? : ∀ place, ¬ touched place → d'.file? place = d.file? place
  directory : ∀ place, d.entry? place = some .directory → d'.entry? place = some .directory
  workingDirectory : d'.workingDirectory = d.workingDirectory

theorem file?_eq_some {place : Place} {stamp : Nat} {content : Bytes} :
    d.file? place = some (stamp, content) ↔ d.entry? place = some (.file stamp content) := by
  unfold file?
  split
  next s c h => simp [h]
  next h => constructor <;> intro hf
            · simp at hf
            · exact absurd hf (h stamp content)

theorem place_ne_nil_of_file? {place : Place} {f : Nat × Bytes} (h : d.file? place = some f) :
    place ≠ [] := by
  intro hnil
  subst hnil
  simp [file?, entry?] at h

namespace ChangesOnly

theorem refl (d : Disk) : ChangesOnly touched d d := ⟨fun _ _ => rfl, fun _ h => h, rfl⟩

theorem mono (h : ChangesOnly touched d d') (hsub : ∀ p, touched p → touched' p) :
    ChangesOnly touched' d d' :=
  ⟨fun p hp => h.file? p fun ht => hp (hsub p ht), h.directory, h.workingDirectory⟩

theorem trans (h : ChangesOnly touched d d') (h' : ChangesOnly touched d' d'') :
    ChangesOnly touched d d'' :=
  ⟨fun p hp => (h'.file? p hp).trans (h.file? p hp),
    fun p hp => h'.directory p (h.directory p hp),
    h'.workingDirectory.trans h.workingDirectory⟩

/-- A disk that differs in what it will answer, and in nothing that it holds. -/
theorem of_entries (he : d'.entries = d.entries) (hw : d'.workingDirectory = d.workingDirectory) :
    ChangesOnly touched d d' := by
  have hentry : ∀ p, d'.entry? p = d.entry? p := by
    intro p
    simp only [ entry?, he]
  exact ⟨fun p _ => by simp only [Disk.file?, hentry], fun p hp => (hentry p).trans hp, hw⟩

end ChangesOnly

/-! ## §2. Paths lead where they led. -/

theorem walk_of_directories
    (hd : ∀ p, d.entry? p = some .directory → d'.entry? p = some .directory)
    {here place : Place} {steps : List String} (h : d.walk here steps = .ok place) :
    d'.walk here steps = .ok place := by
  fun_induction walk d here steps with
  | case1 here => exact h
  | case2 here step rest hnone => cases h
  | case3 here step rest stamp content hfile => cases h
  | case4 here rest hdir ih =>
      simp only [walk, hd _ hdir, if_true]
      exact ih h
  | case5 here rest hdir hne ih =>
      simp only [walk, hd _ hdir, if_neg hne, if_true]
      exact ih h
  | case6 here step rest hdir h1 h2 hlong => cases h
  | case7 here step rest hdir h1 h2 hlong ih =>
      simp only [walk, hd _ hdir, if_neg h1, if_neg h2, if_neg hlong]
      exact ih h

/-- A path that leads somewhere leads there after a change. -/
theorem locate_of_changesOnly (hc : ChangesOnly touched d d') {path : Path} {place : Place}
    (h : d.locate path = .ok place) : d'.locate path = .ok place := by
  have horigin : d'.origin path = d.origin path := by
    simp only [origin, hc.workingDirectory]
  unfold locate at h ⊢
  split at h
  next => cases h
  next =>
    simp only [horigin]
    split at h
    next => cases h
    next htext =>
      rw [if_neg htext]
      exact walk_of_directories hc.directory h

/-- A walk along names leads straight down. -/
theorem walk_names {here place : Place} {names : List String}
    (hnames : ∀ name ∈ names, name ≠ "." ∧ name ≠ "..") (h : d.walk here names = .ok place) :
    place = here ++ names := by
  induction names generalizing here with
  | nil =>
      cases h
      exact (List.append_nil _).symm
  | cons name rest ih =>
      obtain ⟨hdot, hdots⟩ := hnames name List.mem_cons_self
      simp only [walk, if_neg hdot, if_neg hdots] at h
      split at h
      next => cases h
      next => cases h
      next =>
        split at h
        next => cases h
        next =>
          rw [ih (fun other hmem => hnames other (List.mem_cons_of_mem name hmem)) h,
            List.append_assoc]
          rfl

/-- A walk that ends in names ends in a place of these names. -/
theorem walk_append {here place : Place} {steps names : List String}
    (hnames : ∀ name ∈ names, name ≠ "." ∧ name ≠ "..")
    (h : d.walk here (steps ++ names) = .ok place) : ∃ above, place = above ++ names := by
  induction steps generalizing here with
  | nil => exact ⟨here, walk_names hnames h⟩
  | cons step rest ih =>
      simp only [List.cons_append, walk] at h
      split at h
      next => cases h
      next => cases h
      next =>
        split at h
        next => exact ih h
        next =>
          split at h
          next => exact ih h
          next =>
            split at h
            next => cases h
            next => exact ih h

/-- What a path to a file finds. -/
theorem find_eq_file {path : Path} {place : Place} {stamp : Nat} {content : Bytes} :
    d.find path = .ok (place, .file stamp content) ↔
      d.locate path = .ok place ∧ d.file? place = some (stamp, content)
        ∧ path.endsInSlash = false := by
  rw [file?_eq_some]
  unfold find
  cases hl : d.locate path with
  | error fault => simp [bind, Except.bind]
  | ok p =>
      simp only [bind, Except.bind]
      constructor
      · intro h
        split at h
        next => cases h
        next => cases h
        next s c he =>
          split at h
          next => cases h
          next hs =>
            cases h
            exact ⟨rfl, he, by simpa using hs⟩
      · rintro ⟨hp, he, hs⟩
        cases hp
        simp [he, hs]

/-- A file is found as it was after changes elsewhere. -/
theorem find_of_changesOnly (hc : ChangesOnly touched d d') {path : Path} {place : Place}
    {stamp : Nat} {content : Bytes} (h : d.find path = .ok (place, .file stamp content))
    (haway : ¬ touched place) : d'.find path = .ok (place, .file stamp content) := by
  obtain ⟨hloc, hfile, hslash⟩ := find_eq_file.mp h
  refine find_eq_file.mpr ⟨locate_of_changesOnly hc hloc, ?_, hslash⟩
  rw [hc.file? place haway]
  exact hfile

/-- What can be read is the content of the file that is found. -/
theorem read_eq_ok {path : Path} {content : Bytes} :
    d.read path = .ok content ↔ ∃ place stamp, d.find path = .ok (place, .file stamp content) := by
  unfold read
  cases hf : d.find path with
  | error fault => simp [bind, Except.bind]
  | ok found =>
      obtain ⟨place, entry⟩ := found
      cases entry with
      | directory => simp [bind, Except.bind]
      | file stamp c => simp [bind, Except.bind]

/-! ## §3. Requests. -/

/-- What a disk answers says nothing about what it holds. -/
theorem ask_snd (d : Disk) :
    d.ask.2.entries = d.entries ∧ d.ask.2.workingDirectory = d.workingDirectory := by
  unfold ask
  split <;> exact ⟨rfl, rfl⟩

theorem ask_changesOnly (touched : Place → Prop) (d : Disk) : ChangesOnly touched d d.ask.2 :=
  .of_entries d.ask_snd.1 d.ask_snd.2

theorem lookup_put {place p : Place} {entry : Entry} (h : place ≠ []) :
    Disk.entry? (d.put place entry) p = if p = place then some entry else d.entry? p := by
  unfold put entry?
  -- the top is not looked up in the table
  by_cases hp : p = []
  · rw [if_pos hp, if_neg (by rw [hp]; exact Ne.symm h), if_pos hp]
  · simp only [if_neg hp, Std.ExtTreeMap.getElem?_insert, Std.LawfulEqCmp.compare_eq_iff_eq]
    by_cases hq : place = p
    · rw [if_pos hq, if_pos hq.symm]
    · rw [if_neg hq, if_neg (Ne.symm hq)]

/-- Putting a file where no directory stands changes that place only. -/
theorem put_changesOnly {place : Place} {stamp : Nat} {content : Bytes}
    (h : d.entry? place ≠ some .directory) :
    ChangesOnly (· = place) d (d.put place (.file stamp content)) := by
  -- at the top there is a directory
  have hne : place ≠ [] := by
    intro hnil
    exact h (by simp [hnil, entry?])
  refine ⟨fun p hp => ?_, fun p hp => ?_, rfl⟩
  · simp only [file?, lookup_put hne, if_neg hp]
  · rw [lookup_put hne, if_neg (by rintro rfl; exact h hp)]
    exact hp

theorem file?_put {place : Place} {stamp : Nat} {content : Bytes}
    (h : d.entry? place ≠ some .directory) :
    (d.put place (.file stamp content)).file? place = some (stamp, content) := by
  have hne : place ≠ [] := by
    intro hnil
    exact h (by simp [hnil, entry?])
  simp [file?, lookup_put hne]

theorem erase_changesOnly {place : Place} {f : Nat × Bytes} (h : d.file? place = some f) :
    ChangesOnly (· = place) d (d.erase place) ∧ (d.erase place).file? place = none := by
  have hne := place_ne_nil_of_file? h
  have hentry : ∀ p, Disk.entry? (d.erase place) p = if p = place then none else d.entry? p := by
    intro p
    unfold erase entry?
    by_cases hp : p = []
    · rw [if_pos hp, if_neg (by rw [hp]; exact Ne.symm hne), if_pos hp]
    · simp only [if_neg hp, Std.ExtTreeMap.getElem?_erase, Std.LawfulEqCmp.compare_eq_iff_eq]
      by_cases hq : place = p
      · rw [if_pos hq, if_pos hq.symm]
      · rw [if_neg hq, if_neg (Ne.symm hq)]
  refine ⟨⟨fun p hp => ?_, fun p hp => ?_, rfl⟩, ?_⟩
  · simp only [file?, hentry, if_neg hp]
  · rw [hentry, if_neg ?_]
    · exact hp
    · rintro rfl
      simp [file?, hp] at h
  · simp [file?, hentry]

theorem endsInSlash_of_locateFile {path : Path} {place : Place}
    (h : d.locateFile path = .ok place) : path.endsInSlash = false := by
  rw [← Bool.not_eq_true]
  intro hslash
  unfold locateFile at h
  rw [if_pos hslash] at h
  split at h
  next => cases h
  next =>
    cases hwalk : d.walk (d.origin path) (path.steps.dropLast ++ ["."]) with
    | error fault =>
        rw [hwalk] at h
        cases h
    | ok place =>
        rw [hwalk] at h
        cases h

/-- Only a path without a closing slash can be opened as a file. -/
theorem endsInSlash_of_openFile {path : Path} {truncate : Bool} {handle : Handle}
    (h : d.openFile path truncate = (.ok handle, d')) : path.endsInSlash = false := by
  unfold openFile at h
  split at h
  next => cases h
  next =>
    split at h
    next => cases h
    next place hlocate => exact endsInSlash_of_locateFile hlocate

/-- A file that was opened stands where its path leads; `truncate` empties it, and else it
keeps its content. -/
theorem openFile_ok {path : Path} {truncate : Bool} {handle : Handle}
    (hslash : path.endsInSlash = false) (h : d.openFile path truncate = (.ok handle, d')) :
    d.locate path = .ok handle.place
      ∧ d'.file? handle.place = some (handle.stamp,
          if truncate then [] else ((d.file? handle.place).map (·.2)).getD [])
      ∧ ChangesOnly (· = handle.place) d d' := by
  -- answering changes no file, so what is found before is found behind it
  have hback : ChangesOnly (fun _ => False) d.ask.2 d :=
    .of_entries d.ask_snd.1.symm d.ask_snd.2.symm
  have hforth := ask_changesOnly (fun p => p = handle.place) d
  unfold openFile at h
  split at h
  next => cases h
  next d₁ hask =>
    have hd₁ : d.ask.2 = d₁ := by rw [hask]
    rw [hd₁] at hback hforth
    simp only [locateFile, hslash, Bool.false_eq_true, if_false] at h
    split at h
    next => cases h
    next place hloc =>
      have hplace := locate_of_changesOnly hback hloc
      split at h
      next => cases h
      next stamp content he =>
        cases h
        have hnd : d₁.entry? place ≠ some .directory := by simp [he]
        refine ⟨hplace, ?_, hforth.trans (put_changesOnly hnd)⟩
        rw [file?_put hnd, hback.file? place (by simp), file?_eq_some.mpr he]
        simp
      next he =>
        cases h
        have hnd : d₁.entry? place ≠ some .directory := by simp [he]
        refine ⟨hplace, ?_, hforth.trans ((put_changesOnly hnd).trans (.of_entries rfl rfl))⟩
        -- a file that was made was not there before
        have hnone : d.file? place = none := by
          rw [hback.file? place (by simp)]
          simp [file?, he]
        rw [hnone]
        show (d₁.put place (.file d₁.fresh [])).file? place = _
        rw [file?_put hnd]
        simp

/-- A file that could not be opened leaves all files as they are. -/
theorem openFile_error {path : Path} {truncate : Bool} {fault : Fault}
    (h : d.openFile path truncate = (.error fault, d')) : ChangesOnly touched d d' := by
  have hforth := ask_changesOnly touched d
  unfold openFile at h
  split at h
  next hask =>
    cases h
    rwa [hask] at hforth
  next d₁ hask =>
    rw [hask] at hforth
    split at h
    next =>
      cases h
      exact hforth
    next =>
      split at h
      next =>
        cases h
        exact hforth
      next => cases h
      next => cases h

theorem contentOf_eq_some {handle : Handle} {content : Bytes} :
    d.contentOf handle = some content ↔ d.file? handle.place = some (handle.stamp, content) := by
  rw [file?_eq_some]
  unfold contentOf
  split
  next stamp c he =>
    rw [he]
    by_cases hs : stamp = handle.stamp
    · rw [if_pos hs]
      simp [hs]
    · rw [if_neg hs]
      simp [hs]
  next he =>
    constructor
    · intro h
      cases h
    · intro h
      exact absurd h (he _ _)

/-- A write changes only the file that its handle was opened on. -/
theorem write_changesOnly (d : Disk) (limit : Nat) (handle : Handle) (offset : Nat)
    (data : Bytes) : ChangesOnly (· = handle.place) d (d.write limit handle offset data).2 := by
  -- attempts that come to nothing leave all as it is, and others only this file
  have happly : ∀ attempts, ChangesOnly (· = handle.place) d (d.apply handle attempts) := by
    intro attempts
    unfold apply
    split
    next content hc =>
      apply put_changesOnly
      rw [file?_eq_some.mp (contentOf_eq_some.mp hc)]
      simp
    next => exact .refl d
  exact (happly _).trans (.of_entries rfl rfl)

/-- A write at the end of a file extends it by what landed. -/
theorem file?_write (limit : Nat) {handle : Handle} {content : Bytes} (data : Bytes)
    (h : d.file? handle.place = some (handle.stamp, content)) :
    (d.write limit handle content.length data).2.file? handle.place
      = some (handle.stamp,
          content ++ (d.write limit handle content.length data).1.landed) := by
  have hnd : d.entry? handle.place ≠ some .directory := by
    rw [file?_eq_some.mp h]
    simp
  show (d.apply handle _).file? handle.place = _
  unfold apply
  rw [contentOf_eq_some.mpr h]
  simp only [contentAfter_land]
  exact file?_put hnd

/-- The place that a removal can change is where its path leads. -/
theorem removeFile_changesOnly (d : Disk) (path : Path) :
    ChangesOnly (fun p => d.locate path = .ok p) d (d.removeFile path).2 := by
  have hback : ChangesOnly (fun _ => False) d.ask.2 d :=
    .of_entries d.ask_snd.1.symm d.ask_snd.2.symm
  have hforth := ask_changesOnly (fun p => d.locate path = .ok p) d
  unfold removeFile
  split
  next hask => rwa [hask] at hforth
  next d₁ hask =>
    rw [hask] at hback hforth
    split
    next => exact hforth
    next => exact hforth
    next place stamp content hfind =>
      -- what is removed stands where the path led before the request
      obtain ⟨hloc, hfile, -⟩ := find_eq_file.mp hfind
      have hplace := locate_of_changesOnly hback hloc
      refine hforth.trans ((erase_changesOnly hfile).1.mono fun p hp => ?_)
      rw [hp]
      exact hplace

/-- A file that was removed is gone. -/
theorem removeFile_ok {path : Path} (h : d.removeFile path = (.ok (), d')) :
    ∃ place, d.locate path = .ok place ∧ d'.file? place = none := by
  have hback : ChangesOnly (fun _ => False) d.ask.2 d :=
    .of_entries d.ask_snd.1.symm d.ask_snd.2.symm
  unfold removeFile at h
  split at h
  next => cases h
  next d₁ hask =>
    rw [hask] at hback
    split at h
    next => cases h
    next => cases h
    next place stamp content hfind =>
      cases h
      obtain ⟨hloc, hfile, -⟩ := find_eq_file.mp hfind
      exact ⟨place, locate_of_changesOnly hback hloc, (erase_changesOnly hfile).2⟩

theorem writeAll_snd (d : Disk) (handle : Handle) (offset : Nat) (data : Bytes) :
    (d.writeAll handle offset data).2 = (d.write 1 handle offset data).2 := by
  unfold writeAll
  dsimp only
  split <;> rfl

theorem writeAll_fst {handle : Handle} {offset : Nat} {data : Bytes} :
    (d.writeAll handle offset data).1 = .ok ()
      ↔ (d.write 1 handle offset data).1.outcome = .complete := by
  unfold writeAll
  dsimp only
  split <;> simp_all

theorem writeAll_changesOnly (d : Disk) (handle : Handle) (offset : Nat) (data : Bytes) :
    ChangesOnly (· = handle.place) d (d.writeAll handle offset data).2 := by
  rw [writeAll_snd]
  exact write_changesOnly d 1 handle offset data

/-- All of the data is behind a content once it was written there. -/
theorem writeAll_ok {handle : Handle} (content : Bytes) {data : Bytes}
    (h : d.file? handle.place = some (handle.stamp, content))
    (hw : (d.writeAll handle content.length data).1 = .ok ()) :
    (d.writeAll handle content.length data).2.file? handle.place
      = some (handle.stamp, content ++ data) := by
  rw [writeAll_snd, file?_write _ _ h]
  congr 3
  exact land_complete 1 d.responses 0 content.length data (writeAll_fst.mp hw)

/-- The place that making or replacing a file can change is where its path leads. -/
theorem writeFile_changesOnly (d : Disk) {path : Path} (hslash : path.endsInSlash = false)
    (data : Bytes) :
    ChangesOnly (fun p => d.locate path = .ok p) d (d.writeFile path data).2 := by
  unfold writeFile
  split
  next fault d₁ ho => exact openFile_error ho
  next handle d₁ ho =>
    obtain ⟨hloc, -, hopen⟩ := openFile_ok hslash ho
    refine ((hopen.trans (writeAll_changesOnly d₁ handle 0 data))).mono fun p hp => ?_
    rw [hp]
    exact hloc

theorem writeFile_ok {path : Path} (hslash : path.endsInSlash = false) {data : Bytes}
    (h : d.writeFile path data = (.ok (), d')) :
    ∃ place stamp, d'.find path = .ok (place, .file stamp data) := by
  unfold writeFile at h
  split at h
  next => cases h
  next handle d₁ ho =>
    obtain ⟨hloc, hfile, hopen⟩ := openFile_ok hslash ho
    have hc := writeAll_changesOnly d₁ handle 0 data
    rw [h] at hc
    -- the file is empty once it is opened, so all of it is the data
    have hdata := writeAll_ok [] (by simpa using hfile) (congrArg Prod.fst h)
    simp only [List.length_nil, h, List.nil_append] at hdata
    exact ⟨handle.place, handle.stamp, find_eq_file.mpr
      ⟨locate_of_changesOnly (hopen.trans hc) hloc, hdata, hslash⟩⟩

/-! ## §4. A disk that does what it is asked. -/

/-- A file stands at a path, or one can be made there. -/
def Admits (d : Disk) (path : Path) : Prop :=
  ∃ place, d.locate path = .ok place ∧ d.entry? place ≠ some .directory

theorem write_responses (hr : d.responses = []) (limit : Nat) (handle : Handle) (offset : Nat)
    (data : Bytes) :
    (d.write limit handle offset data).1.outcome = .complete
      ∧ (d.write limit handle offset data).2.responses = [] := by
  show (land limit d.responses 0 offset data).outcome = .complete
    ∧ (land limit d.responses 0 offset data).rest = []
  rw [hr]
  exact land_nil_responses limit 0 offset data

end Wiretap.Disk
