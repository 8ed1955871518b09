/-
  Wiretap.Proofs.Places
  ─────────────────────
  **WHAT A REQUEST MAKES OF WHICH PLACE.**

  Where a path leads can be told from its steps alone (`Disk.placeOf`), whatever stands on the
  disk.  With that, each request is described by three sets of places: those where it leaves a
  file, those where it leaves nothing and those where it leaves a directory.  Everything else is
  as it was (`Disk.Alters`).
-/
import Wiretap.Proofs.ArchiveFiles

namespace Wiretap

/-! ## §1. Where paths lead. -/

namespace Disk

/-- Where one more step leads. -/
def follow (here : Place) (step : String) : Place :=
  if step = "." then here else if step = ".." then here.dropLast else here ++ [step]

/-- The place that a path names, by its steps. -/
def placeOf (d : Disk) (path : Path) : Place := path.steps.foldl follow (d.origin path)

variable {d d' d'' : Disk} {here place : Place} {path : Path} {steps : List String}

theorem follow_of_proper {step : String} (h : step ≠ "." ∧ step ≠ "..") :
    follow here step = here ++ [step] := by
  unfold follow
  rw [if_neg h.1, if_neg h.2]

/-- Proper names lead straight down. -/
theorem foldl_follow_of_proper (h : ∀ step ∈ steps, step ≠ "." ∧ step ≠ "..") :
    steps.foldl follow here = here ++ steps := by
  induction steps generalizing here with
  | nil => simp
  | cons step rest ih =>
      obtain ⟨hstep, hrest⟩ := List.forall_mem_cons.mp h
      rw [List.foldl_cons, follow_of_proper hstep, ih hrest, List.append_assoc]
      rfl

/-- A walk that arrives does so where its steps say. -/
theorem place_of_walk (h : d.walk here steps = .ok place) : place = steps.foldl follow here := by
  induction steps generalizing here with
  | nil =>
      cases h
      rfl
  | cons step rest ih =>
      unfold walk at h
      split at h
      next => cases h
      next => cases h
      next =>
        rw [List.foldl_cons]
        unfold follow
        split at h
        next hdot =>
          rw [if_pos hdot]
          exact ih h
        next hdot =>
          rw [if_neg hdot]
          split at h
          next hdots =>
            rw [if_pos hdots]
            exact ih h
          next hdots =>
            rw [if_neg hdots]
            split at h
            next => cases h
            next => exact ih h

theorem place_of_locate (h : d.locate path = .ok place) : place = d.placeOf path := by
  unfold locate at h
  split at h
  next => cases h
  next =>
    split at h
    next => cases h
    next => exact place_of_walk h

theorem placeOf_of_workingDirectory (h : d'.workingDirectory = d.workingDirectory) (path : Path) :
    d'.placeOf path = d.placeOf path := by
  unfold placeOf origin
  rw [h]

/-! ## §2. What became of places. -/

/-- From one disk to a later one, every place is as it was, or it is one where a file was
written and a file is, or one where a file was removed and nothing is, or one where a directory
was made and one is. -/
structure Alters (written removed made : Place → Prop) (d d' : Disk) : Prop where
  cases : ∀ p, d'.entry? p = d.entry? p
    ∨ (written p ∧ ∃ stamp content, d'.entry? p = some (.file stamp content))
    ∨ (removed p ∧ d'.entry? p = none)
    ∨ (made p ∧ d'.entry? p = some .directory)
  workingDirectory : d'.workingDirectory = d.workingDirectory

namespace Alters

variable {written removed made written' removed' made' : Place → Prop}

/-- A disk that holds what it held. -/
theorem of_entries (he : d'.entries = d.entries) (hw : d'.workingDirectory = d.workingDirectory) :
    Alters written removed made d d' := by
  refine ⟨fun p => Or.inl ?_, hw⟩
  simp only [ entry?, he]

theorem refl (d : Disk) : Alters written removed made d d := of_entries rfl rfl

theorem mono (h : Alters written removed made d d') (hw : ∀ p, written p → written' p)
    (hr : ∀ p, removed p → removed' p) (hm : ∀ p, made p → made' p) :
    Alters written' removed' made' d d' := by
  refine ⟨fun p => ?_, h.workingDirectory⟩
  rcases h.cases p with hsame | ⟨hp, hfile⟩ | ⟨hp, hnone⟩ | ⟨hp, hdir⟩
  · exact Or.inl hsame
  · exact Or.inr (Or.inl ⟨hw p hp, hfile⟩)
  · exact Or.inr (Or.inr (Or.inl ⟨hr p hp, hnone⟩))
  · exact Or.inr (Or.inr (Or.inr ⟨hm p hp, hdir⟩))

theorem trans (h : Alters written removed made d d') (h' : Alters written removed made d' d'') :
    Alters written removed made d d'' := by
  refine ⟨fun p => ?_, h'.workingDirectory.trans h.workingDirectory⟩
  -- the last that happened to a place counts
  rcases h'.cases p with hsame | hlater
  · rw [hsame]
    exact h.cases p
  · exact Or.inr hlater

/-- A file put at a place. -/
theorem put_file (d : Disk) (place : Place) (stamp : Nat) (content : Bytes) :
    Alters (· = place) removed made d (d.put place (.file stamp content)) := by
  refine ⟨fun p => ?_, rfl⟩
  by_cases hroot : place = []
  · -- nothing can be put at the root, and nothing else is touched
    refine Or.inl ?_
    by_cases hp : p = []
    · simp [ entry?, hp]
    · simp [ entry?, put, hp, hroot, Std.ExtTreeMap.getElem?_insert,
        Std.LawfulEqCmp.compare_eq_iff_eq, Ne.symm hp]
  · by_cases hp : p = place
    · exact Or.inr (Or.inl ⟨hp, stamp, content, by rw [lookup_put hroot, if_pos hp]⟩)
    · exact Or.inl (by rw [lookup_put hroot, if_neg hp])

/-- A directory put at a place where something can be. -/
theorem put_directory (hroot : place ≠ []) :
    Alters written removed (· = place) d (d.put place .directory) := by
  refine ⟨fun p => ?_, rfl⟩
  by_cases hp : p = place
  · exact Or.inr (Or.inr (Or.inr ⟨hp, by rw [lookup_put hroot, if_pos hp]⟩))
  · exact Or.inl (by rw [lookup_put hroot, if_neg hp])

/-- A place cleared. -/
theorem erase (d : Disk) (place : Place) :
    Alters written (· = place) made d (d.erase place) := by
  refine ⟨fun p => ?_, rfl⟩
  by_cases hp : p = []
  · exact Or.inl (by simp [ entry?, hp])
  · by_cases hplace : p = place
    · rw [hplace] at hp
      refine Or.inr (Or.inr (Or.inl ⟨hplace, ?_⟩))
      simp [ entry?, Disk.erase, hp, hplace]
    · refine Or.inl ?_
      simp [ entry?, Disk.erase, hp, Std.ExtTreeMap.getElem?_erase,
        Std.LawfulEqCmp.compare_eq_iff_eq, Ne.symm hplace]

theorem ask (d : Disk) : Alters written removed made d d.ask.2 :=
  of_entries d.ask_snd.1 d.ask_snd.2

end Alters

/-! ## §3. Files. -/

variable {written removed made : Place → Prop}

/-- Opening a file leaves one where the path leads, and that is where it was opened. -/
theorem openFile_alters (d : Disk) (path : Path) (truncate : Bool) :
    Alters (· = d.placeOf path) removed made d (d.openFile path truncate).2 := by
  have hask : Alters (· = d.placeOf path) removed made d d.ask.2 := .ask d
  unfold openFile
  split
  next h => rwa [h] at hask
  next d₁ h =>
    rw [h] at hask
    split
    next => exact hask
    next place hloc =>
      have hplace : place = d.placeOf path := by
        rw [← placeOf_of_workingDirectory hask.workingDirectory]
        have hslash := endsInSlash_of_locateFile hloc
        simp only [locateFile, hslash, Bool.false_eq_true, if_false] at hloc
        exact place_of_locate hloc
      rw [← hplace] at hask ⊢
      split
      next => exact hask
      next => exact hask.trans (.put_file d₁ place _ _)
      next =>
        exact (hask.trans (.put_file d₁ place d₁.fresh [])).trans (.of_entries rfl rfl)

theorem place_of_openFile {path : Path} {truncate : Bool} {handle : Handle}
    (h : d.openFile path truncate = (.ok handle, d')) : handle.place = d.placeOf path :=
  place_of_locate (openFile_ok (endsInSlash_of_openFile h) h).1

theorem write_alters (d : Disk) (limit : Nat) (handle : Handle) (offset : Nat) (data : Bytes) :
    Alters (· = handle.place) removed made d (d.write limit handle offset data).2 := by
  have happly : ∀ attempts, Alters (· = handle.place) removed made d (d.apply handle attempts) := by
    intro attempts
    unfold apply
    split
    next => exact .put_file d handle.place handle.stamp _
    next => exact .refl d
  exact (happly _).trans (.of_entries rfl rfl)

theorem writeAll_alters (d : Disk) (handle : Handle) (offset : Nat) (data : Bytes) :
    Alters (· = handle.place) removed made d (d.writeAll handle offset data).2 := by
  rw [writeAll_snd]
  exact write_alters d 1 handle offset data

theorem writeFile_alters (d : Disk) (path : Path) (data : Bytes) :
    Alters (· = d.placeOf path) removed made d (d.writeFile path data).2 := by
  have hopened : Alters (· = d.placeOf path) removed made d (d.openFile path true).2 :=
    openFile_alters d path true
  unfold writeFile
  split
  next h => rwa [h] at hopened
  next handle d₁ h =>
    rw [h] at hopened
    rw [← place_of_openFile h] at hopened ⊢
    exact hopened.trans (writeAll_alters d₁ handle 0 data)

theorem removeFile_alters (d : Disk) (path : Path) :
    Alters written (· = d.placeOf path) made d (d.removeFile path).2 := by
  have hask : Alters written (· = d.placeOf path) made d d.ask.2 := .ask d
  unfold removeFile
  split
  next h => rwa [h] at hask
  next d₁ h =>
    rw [h] at hask
    split
    next => exact hask
    next => exact hask
    next place stamp content hfind =>
      have hplace : place = d.placeOf path := by
        rw [← placeOf_of_workingDirectory hask.workingDirectory]
        exact place_of_locate (find_eq_file.mp hfind).1
      rw [← hplace] at hask ⊢
      exact hask.trans (.erase d₁ place)

/-! ## §4. Directories. -/

/-- The places on a way: where its first steps lead, one of them or more. -/
def OnWay (here : Place) (steps : List String) (p : Place) : Prop :=
  ∃ front, front ≠ [] ∧ front <+: steps ∧ p = front.foldl follow here

theorem OnWay.cons {step : String} {p : Place} (h : OnWay (follow here step) steps p) :
    OnWay here (step :: steps) p := by
  obtain ⟨front, -, hfront, rfl⟩ := h
  exact ⟨step :: front, by simp, (List.prefix_cons_inj step).mpr hfront, rfl⟩

theorem onWay_first (here : Place) (step : String) (steps : List String) :
    OnWay here (step :: steps) (follow here step) :=
  ⟨[step], by simp, by simp, rfl⟩

theorem OnWay.mono {steps' : List String} {p : Place} (h : OnWay here steps p)
    (hsteps : steps <+: steps') : OnWay here steps' p := by
  obtain ⟨front, hne, hfront, hp⟩ := h
  exact ⟨front, hne, hfront.trans hsteps, hp⟩

/-- Directories are made on the way. -/
theorem makeWay_alters (d : Disk) (already : Bool) (here : Place) (steps : List String) :
    Alters written removed (OnWay here steps) d (d.makeWay already here steps).2 := by
  induction steps generalizing d already here with
  | nil =>
      unfold makeWay
      split <;> exact .refl d
  | cons step rest ih =>
      have hrest : ∀ {d₁ : Disk} {b : Bool}, Alters written removed (OnWay here (step :: rest)) d₁
          (d₁.makeWay b (follow here step) rest).2 := fun {d₁ b} =>
        (ih d₁ b (follow here step)).mono (fun _ h => h) (fun _ h => h) fun _ h => h.cons
      unfold makeWay
      split
      next => exact .refl d
      next => exact .refl d
      next =>
        split
        next hdot =>
          have hstay : follow here step = here := if_pos hdot
          rw [hstay] at hrest
          exact hrest
        next hdot =>
          split
          next hdots =>
            have hup : follow here step = here.dropLast := (if_neg hdot).trans (if_pos hdots)
            rw [hup] at hrest
            exact hrest
          next hdots =>
            have hdown : follow here step = here ++ [step] := follow_of_proper ⟨hdot, hdots⟩
            have hfirst := onWay_first here step rest
            rw [hdown] at hrest hfirst
            split
            next => exact .refl d
            next =>
              split
              next =>
                have hput : Alters written removed (OnWay here (step :: rest)) d
                    (d.put (here ++ [step]) .directory) :=
                  (Alters.put_directory (by simp)).mono (fun _ h => h) (fun _ h => h)
                    fun p hp => by rwa [hp]
                exact hput.trans hrest
              next => exact hrest

theorem makeDirectories_alters (d : Disk) (path : Path) :
    Alters written removed (OnWay (d.origin path) path.steps) d (d.makeDirectories path).2 := by
  have hask : Alters written removed (OnWay (d.origin path) path.steps) d d.ask.2 := .ask d
  unfold makeDirectories
  split
  next h => rwa [h] at hask
  next d₁ h =>
    rw [h] at hask
    have horigin : d₁.origin path = d.origin path := by
      unfold origin
      rw [hask.workingDirectory]
    rw [horigin]
    -- both ways follow the first steps of the path, or all of them
    have hway : ∀ steps, steps <+: path.steps → Alters written removed
        (OnWay (d.origin path) path.steps) d (d₁.makeWay false (d.origin path) steps).2 :=
      fun steps hsteps => hask.trans ((makeWay_alters d₁ false (d.origin path) steps).mono
        (fun _ h => h) (fun _ h => h) fun _ h => h.mono hsteps)
    split
    next => exact hask
    next =>
      split
      next =>
        have htrim : (Path.trimIdle path.steps).dropLast <+: path.steps := by
          refine (List.dropLast_prefix _).trans ?_
          unfold Path.trimIdle
          rw [← List.reverse_suffix, List.reverse_reverse]
          exact List.dropWhile_suffix _
        have hmade := hway _ htrim
        unfold makeAbove
        split
        next hw => rwa [hw] at hmade
        next hw => rwa [hw] at hmade
      next =>
        have hmade := hway _ List.prefix_rfl
        unfold makeSteps
        split
        next hw => rwa [hw] at hmade
        next hw =>
          rw [hw] at hmade
          split <;> exact hmade

end Disk

/-! ## §5. Spills and buffers. -/

variable {written removed made : Place → Prop}

namespace Spill

open Disk

theorem append_alters (s : Spill) (disk : Disk) (chunk : Bytes) :
    Alters (· = s.handle.place) removed made disk (s.append disk chunk).2.2 :=
  write_alters disk maxIdleAttempts s.handle s.offset chunk

theorem appendAll_alters (s : Spill) (disk : Disk) (parts : List Bytes) :
    Alters (· = s.handle.place) removed made disk (s.appendAll disk parts).2.2 := by
  induction parts generalizing s disk with
  | nil => exact .refl disk
  | cons part rest ih =>
      have hfirst : Alters (· = s.handle.place) removed made disk (s.append disk part).2.2 :=
        append_alters s disk part
      have hpath := append_path s disk part
      unfold appendAll
      split
      next s₁ disk₁ happend =>
        rw [happend] at hfirst hpath
        have hrest := ih s₁ disk₁
        rw [hpath.2] at hrest
        exact hfirst.trans hrest
      next => exact hfirst

/-- A spill is made where its path leads, or not left there. -/
theorem create_alters (disk : Disk) (path : Path) (parts : List Bytes) :
    Alters (· = disk.placeOf path) (· = disk.placeOf path) made disk
      (create disk path parts).2 := by
  have hopened : Alters (· = disk.placeOf path) (· = disk.placeOf path) made disk
      (disk.openFile path true).2 := openFile_alters disk path true
  unfold create
  split
  next h => rwa [h] at hopened
  next handle disk₁ h =>
    rw [h] at hopened
    have hall : Alters (· = handle.place) (· = disk.placeOf path) made disk₁
        ((Spill.mk handle path 0).appendAll disk₁ parts).2.2 :=
      appendAll_alters ⟨handle, path, 0⟩ disk₁ parts
    rw [place_of_openFile h] at hall
    split
    next ha =>
      rw [ha] at hall
      exact hopened.trans hall
    next disk₂ ha =>
      rw [ha] at hall
      have hfilled := hopened.trans hall
      have hgone : Alters (· = disk₂.placeOf path) (· = disk₂.placeOf path) made disk₂
          (disk₂.removeFile path).2 := removeFile_alters disk₂ path
      rw [placeOf_of_workingDirectory hfilled.workingDirectory] at hgone
      exact hfilled.trans hgone

end Spill

namespace Buffer

open Disk

variable {disk : Disk} {threshold : Nat} {path : Path} {bytes : Bytes}

theorem create_alters (disk : Disk) (chunk : Bytes) (threshold : Nat) (path : Path) :
    Alters (· = disk.placeOf path) (· = disk.placeOf path) made disk
      (create disk chunk threshold path).2 := by
  have hspill : Alters (· = disk.placeOf path) (· = disk.placeOf path) made disk
      (Spill.create disk path [chunk]).2 := Spill.create_alters disk path [chunk]
  unfold create
  split
  next =>
    split
    next h => rwa [h] at hspill
    next h => rwa [h] at hspill
  next => exact .refl disk

theorem append_alters {buffer : Buffer} (h : buffer.Holds disk threshold path bytes)
    (chunk : Bytes) :
    Alters (· = disk.placeOf path) (· = disk.placeOf path) made disk
      (buffer.append disk chunk threshold path).2.2 := by
  cases buffer with
  | inMemory held =>
      have hspill : Alters (· = disk.placeOf path) (· = disk.placeOf path) made disk
          (Spill.create disk path [held, chunk]).2 := Spill.create_alters disk path [held, chunk]
      simp only [append]
      split
      next =>
        split
        next hw => rwa [hw] at hspill
        next hw => rwa [hw] at hspill
      next => exact .refl disk
  | onDisk spill =>
      have hspill : Alters (· = spill.handle.place) (· = disk.placeOf path) made disk
          (spill.append disk chunk).2.2 := Spill.append_alters spill disk chunk
      -- the spill stands where its path leads
      rw [place_of_locate h.locate] at hspill
      simp only [append]
      split
      next hw => rwa [hw] at hspill
      next hw => rwa [hw] at hspill

theorem write_alters {held : Option Buffer} (h : Kept disk threshold path bytes held)
    (chunk : Bytes) :
    Alters (· = disk.placeOf path) (· = disk.placeOf path) made disk
      (write held disk chunk threshold path).2.2 := by
  cases held with
  | none =>
      have hmade : Alters (· = disk.placeOf path) (· = disk.placeOf path) made disk
          (create disk chunk threshold path).2 := create_alters disk chunk threshold path
      simp only [write]
      split
      next hw => rwa [hw] at hmade
      next hw => rwa [hw] at hmade
  | some buffer => exact append_alters h.2 chunk

end Buffer

end Wiretap
