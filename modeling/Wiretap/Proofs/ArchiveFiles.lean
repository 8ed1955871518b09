/-
  Wiretap.Proofs.ArchiveFiles
  ───────────────────────────
  **WHERE THE ARCHIVE WRITES.**

  Making directories changes no file (`makeDirectories_changesOnly`).  An artifact stands in
  a directory of the name of its exchange (`artifact_in_shard`), so the files of one exchange,
  its spills, its files saved in an emergency and its artifacts, are not those of another
  (`FileOf.unique`).  To archive an exchange changes no others (`archive_changesOnly`).
-/
import Wiretap.Proofs.Calls

namespace Wiretap

/-! ## §1. Making directories. -/

namespace Disk

variable {d : Disk} {touched : Place → Prop}

theorem putDirectory_changesOnly {place : Place} (h : d.entry? place = none) :
    ChangesOnly touched d (d.put place .directory) := by
  -- at the top something is there
  have hne : place ≠ [] := by
    intro hnil
    rw [hnil] at h
    cases h
  refine ⟨fun p _ => ?_, fun p hp => ?_, rfl⟩
  · unfold file?
    rw [lookup_put hne]
    by_cases hp : p = place
    · rw [if_pos hp, hp, h]
    · rw [if_neg hp]
  · rw [lookup_put hne]
    by_cases hq : p = place
    · rw [if_pos hq]
    · rw [if_neg hq]
      exact hp

theorem makeWay_changesOnly (made : Bool) (here : Place) (steps : List String) :
    ChangesOnly touched d (d.makeWay made here steps).2 := by
  induction steps generalizing d made here with
  | nil =>
      unfold makeWay
      split <;> exact .refl d
  | cons step rest ih =>
      unfold makeWay
      split
      next => exact .refl d
      next => exact .refl d
      next =>
        split
        next => exact ih made here
        next =>
          split
          next => exact ih made here.dropLast
          next =>
            split
            next => exact .refl d
            next =>
              split
              next hnone =>
                -- a directory is made only where nothing is
                have hput : ChangesOnly touched d (d.put (here ++ [step]) .directory) :=
                  putDirectory_changesOnly (Option.isNone_iff_eq_none.mp hnone)
                exact hput.trans (ih true (here ++ [step]))
              next => exact ih made (here ++ [step])

/-- Making directories changes no file. -/
theorem makeDirectories_changesOnly (d : Disk) (path : Path) :
    ChangesOnly touched d (d.makeDirectories path).2 := by
  have hask := ask_changesOnly touched d
  unfold makeDirectories
  split
  next h => rwa [h] at hask
  next d₁ h =>
    rw [h] at hask
    split
    next => exact hask
    next =>
      split
      next =>
        unfold makeAbove
        have hway : ChangesOnly touched d₁ (d₁.makeWay false (d₁.origin path)
            (Path.trimIdle path.steps).dropLast).2 := makeWay_changesOnly _ _ _
        split
        next hw =>
          rw [hw] at hway
          exact hask.trans hway
        next hw =>
          rw [hw] at hway
          exact hask.trans hway
      next =>
        unfold makeSteps
        have hway : ChangesOnly touched d₁ (d₁.makeWay false (d₁.origin path) path.steps).2 :=
          makeWay_changesOnly _ _ _
        split
        next hw =>
          rw [hw] at hway
          exact hask.trans hway
        next hw =>
          rw [hw] at hway
          split <;> exact hask.trans hway

end Disk

/-! ## §2. The files of an exchange. -/

namespace Store

variable {s s' : Store} {id id' : ExchangeId} {base target : Path} {date : Time.Date}

/-- The files of an exchange: its spills, its files saved in an emergency and its
artifacts. -/
def FileOf (id : ExchangeId) (place : Place) : Prop :=
  ∃ d, EndsIn (Repository.spillName d id) place ∨ EndsIn (Repository.emergencyName d id) place
    ∨ ∃ above, place = above ++ [id.text, artifactName d]

theorem endsIn_of_artifact {above : Place} {d : Direction} :
    EndsIn (artifactName d) (above ++ [id.text, artifactName d]) :=
  ⟨above ++ [id.text], by simp⟩

/-- A file belongs to one exchange. -/
theorem FileOf.unique {place : Place} (h : FileOf id place) (h' : FileOf id' place) :
    id = id' := by
  obtain ⟨d, h⟩ := h
  obtain ⟨d', h'⟩ := h'
  rcases h with h | h | ⟨above, rfl⟩
  · rcases h' with h' | h' | ⟨above', rfl⟩
    · exact (Repository.spillName_inj (h.unique h')).2
    · exact absurd (h.unique h') (Repository.spillName_ne_emergencyName d d' id id')
    · exact absurd (endsIn_of_artifact.unique h) (Repository.artifactName_ne_spillName d' d id)
  · rcases h' with h' | h' | ⟨above', rfl⟩
    · exact absurd (h'.unique h) (Repository.spillName_ne_emergencyName d' d id' id)
    · exact (Repository.emergencyName_inj (h.unique h')).2
    · exact absurd (endsIn_of_artifact.unique h) (Repository.artifactName_ne_emergencyName d' d id)
  · rcases h' with h' | h' | ⟨above', heq⟩
    · exact absurd (endsIn_of_artifact.unique h') (Repository.artifactName_ne_spillName d d' id')
    · exact absurd (endsIn_of_artifact.unique h')
        (Repository.artifactName_ne_emergencyName d d' id')
    · -- the name of the directory tells the exchange
      have hlast := List.append_inj_right' heq rfl
      exact ExchangeId.text_inj.mp (List.cons.inj hlast).1

theorem isProper_text (h : id.isPathSafe = true) : Path.IsProper id.text := by
  simp only [ExchangeId.isPathSafe, Bool.and_eq_true, bne_iff_ne, List.all_eq_true] at h
  obtain ⟨hne, hsafe⟩ := h
  refine ⟨?_, ?_, ?_⟩
  · simp only [Path.isName, Bool.and_eq_true, bne_iff_ne, List.all_eq_true]
    refine ⟨hne, fun c hc hslash => ?_⟩
    subst hslash
    exact absurd (hsafe '/' hc) (by decide)
  · intro hdot
    exact absurd (hsafe '.' (by simp [hdot])) (by decide)
  · intro hdots
    exact absurd (hsafe '.' (by simp [hdots])) (by decide)

/-- The directory of an exchange has its name, which can be one. -/
theorem shardDirectory_ok (h : Archive.shardDirectory base date id = .ok target) :
    id.isPathSafe = true ∧ ∃ above : Path, target = above.join id.text := by
  unfold Archive.shardDirectory at h
  split at h
  next => cases h
  next hgood =>
    simp only [Bool.or_eq_true, Bool.not_eq_true', not_or, Bool.not_eq_false] at hgood
    cases h
    refine ⟨hgood.1, ?_⟩
    rw [List.foldl_append]
    exact ⟨_, rfl⟩

/-- An artifact stands in a directory of the name of its exchange. -/
theorem artifact_in_shard (h : Archive.shardDirectory base date id = .ok target) {d : Direction}
    {place : Place} (hp : ArtifactPlace target d place) :
    ∃ above, place = above ++ [id.text, artifactName d] := by
  obtain ⟨hsafe, above, rfl⟩ := shardDirectory_ok h
  obtain ⟨disk, hloc⟩ := hp
  have hid := isProper_text hsafe
  have hname := Repository.isProper_artifactName d
  -- both names are single steps, so the path ends in them
  have hsteps : ((above.join id.text).join (artifactName d)).steps
      = above.steps ++ [id.text, artifactName d] := by
    rw [Path.steps_join_of_isName _ hname.1, Path.steps_join_of_isName _ hid.1]
    simp
  refine Disk.locate_append hsteps ?_ hloc
  · intro name hmem
    rcases List.mem_cons.mp hmem with rfl | hmem
    · exact hid.2
    · obtain rfl := List.mem_singleton.mp hmem
      exact hname.2

/-! ## §3. Archiving. -/

/-- The store with the directories of a path made, as far as that goes. -/
def withDirectories (s : Store) (path : Path) : Store :=
  { s with disk := (s.disk.makeDirectories path).2 }

theorem withDirectories_changesOnly (keys : Direction → ExchangeId → Prop) (files : Place → Prop)
    (s : Store) (path : Path) : ChangesOnly keys files s (s.withDirectories path) :=
  .of_disk (Disk.makeDirectories_changesOnly s.disk path) rfl

theorem withDirectories_sound (h : s.Sound) (path : Path) : (s.withDirectories path).Sound := by
  have hspills : SpillsOf (fun _ _ => False) (fun _ : Place => False) := fun _ _ _ _ hf => hf
  exact h.change hspills (withDirectories_changesOnly _ _ s path) fun _ _ hkey => hkey.elim

/-- What stands in front of the bodies of a record, in bytes. -/
def preambles (r : Record) (d : Direction) : Bytes := Utf8.encode (Archive.preamble r d)

/-- To archive a record fails before its buffers are touched, or it is to move them to its
directory. -/
theorem archive_cases (s : Store) (base : Path) (r : Record) :
    ((∃ failure, (Archive.archive s base r).1 = .error failure)
        ∧ ((Archive.archive s base r).2 = s
          ∨ ∃ target, Archive.shardDirectory base r.started.date r.id = .ok target
            ∧ (Archive.archive s base r).2 = s.withDirectories target))
    ∨ ∃ target metrics, Archive.shardDirectory base r.started.date r.id = .ok target
      ∧ (Archive.archive s base r).2
          = { ((s.withDirectories target).archiveInto r.id target (preambles r)).2 with metrics }
      ∧ ∀ directory, (Archive.archive s base r).1 = .ok directory → directory = target
          ∧ ∃ artifacts,
            ((s.withDirectories target).archiveInto r.id target (preambles r)).1
              = .ok artifacts := by
  unfold Archive.archive
  split
  next failure hshard => exact Or.inl ⟨⟨failure, rfl⟩, Or.inl rfl⟩
  next target hshard =>
    split
    next fault disk hmake =>
      refine Or.inl ⟨⟨.disk target fault, rfl⟩, Or.inr ⟨target, hshard, ?_⟩⟩
      show _ = { s with disk := (s.disk.makeDirectories target).2 }
      rw [hmake]
    next disk hmake =>
      -- from here on, the directories are there
      have hdirs : s.withDirectories target = { s with disk } := by
        show { s with disk := (s.disk.makeDirectories target).2 } = _
        rw [hmake]
      dsimp only
      split
      next failure s₁ hmoved =>
        have hinto : (s.withDirectories target).archiveInto r.id target (preambles r)
            = (.error failure, s₁) := by
          rw [hdirs]
          exact hmoved
        refine Or.inr ⟨target, s₁.metrics, hshard, ?_, fun _ hok => by cases hok⟩
        rw [hinto]
      next artifacts s₁ hmoved =>
        have hinto : (s.withDirectories target).archiveInto r.id target (preambles r)
            = (.ok artifacts, s₁) := by
          rw [hdirs]
          exact hmoved
        refine Or.inr ⟨target, { s₁.metrics with archived := s₁.metrics.archived + 1 }, hshard, ?_,
          fun directory hok => ⟨?_, artifacts, ?_⟩⟩
        · rw [hinto]
        · cases hok
          rfl
        · rw [hinto]

/-- To archive a record changes the entries and the files of its exchange. -/
theorem archive_changesOnly (h : s.Sound) (base : Path) (r : Record) :
    ChangesOnly (KeysOf r.id) (FileOf r.id) s (Archive.archive s base r).2 := by
  rcases archive_cases s base r with ⟨-, hsame | ⟨path, -, hdirs⟩⟩ | ⟨target, metrics, hshard, hs, -⟩
  · rw [hsame]
    exact .refl s
  · rw [hdirs]
    exact withDirectories_changesOnly _ _ s path
  · rw [hs]
    -- the artifacts are in the directory of the exchange, and the spills have its name
    have hinto := archiveInto_changesOnly (withDirectories_sound h target) r.id target
      (preambles r)
    refine ((withDirectories_changesOnly _ _ s target).trans
      (hinto.mono (fun _ _ hk => hk) ?_)).withMetrics metrics
    rintro p ⟨d, hart | hspill⟩
    · exact ⟨d, Or.inr (Or.inr (artifact_in_shard hshard hart))⟩
    · exact ⟨d, Or.inl hspill⟩

theorem archive_sound (h : s.Sound) (base : Path) (r : Record) :
    (Archive.archive s base r).2.Sound := by
  rcases archive_cases s base r with ⟨-, hsame | ⟨path, -, hdirs⟩⟩ | ⟨target, metrics, -, hs, -⟩
  · rw [hsame]
    exact h
  · rw [hdirs]
    exact withDirectories_sound h path
  · rw [hs]
    exact (archiveInto_sound (withDirectories_sound h target) r.id target
      (preambles r)).withMetrics metrics

/-- A record that was archived has no buffer left. -/
theorem archive_released (h : s.Sound) {r : Record} {directory : Path}
    (hok : (Archive.archive s base r).1 = .ok directory) (d : Direction) :
    (Archive.archive s base r).2.repository.buffer? d r.id = none := by
  rcases archive_cases s base r with ⟨⟨failure, herr⟩, -⟩ | ⟨target, metrics, -, hs, hinto⟩
  · rw [herr] at hok
    cases hok
  · obtain ⟨-, artifacts, hartifacts⟩ := hinto directory hok
    rw [hs]
    exact archiveInto_released (withDirectories_sound h target) hartifacts d

end Store

end Wiretap
