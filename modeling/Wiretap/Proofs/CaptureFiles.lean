/-
  Wiretap.Proofs.CaptureFiles
  ───────────────────────────
  **NO TWO CAPTURE FILES ARE ONE.**

  A spill, a file saved in an emergency and an artifact never share a name, and two spills
  share one only if they are of one direction of one exchange (`spillName_inj`,
  `emergencyName_inj`, `spillName_ne_emergencyName`).  A path made by joining such a name
  leads to a place that ends in it (`locate_join`), so the places differ as the names do.
-/
import Wiretap.Archive
import Wiretap.Proofs.Files

namespace Wiretap

/-! ## §1. Paths that end in a name. -/

namespace Path

/-- Whether a text is one name, and leads down. -/
def IsProper (name : String) : Prop := isName name = true ∧ name ≠ "." ∧ name ≠ ".."

theorem text_join (p : Path) {name : String} (h : isName name = true) :
    (p.join name).text = joinText p.text name := by
  rw [join_of_isName p h]
  simp [text, List.foldl_append]

/-- A path that ends in a name does not end in a slash. -/
theorem endsInSlash_join (p : Path) {name : String} (h : isName name = true) :
    (p.join name).endsInSlash = false := by
  unfold endsInSlash
  rw [text_join p h]
  simp only [isName, Bool.and_eq_true, bne_iff_ne, List.all_eq_true, ne_eq] at h
  obtain ⟨hne, hslash⟩ := h
  have hnil : name.toList ≠ [] := by
    intro hnil
    exact hne (String.toList_inj.mp (by simpa using hnil))
  -- with or without a slash between, the last character is that of the name
  have hlast : (joinText p.text name).toList.getLast? = some (name.toList.getLast hnil) := by
    unfold joinText
    split <;> rw [String.toList_append, List.getLast?_append,
      List.getLast?_eq_some_getLast hnil, Option.some_or]
  rw [hlast]
  simpa using hslash _ (List.getLast_mem hnil)

end Path

/-- A path that ends in names leads to a place that does. -/
theorem Disk.locate_append {d : Disk} {path : Path} {steps names : List String} {place : Place}
    (hsteps : path.steps = steps ++ names)
    (hnames : ∀ name ∈ names, name ≠ "." ∧ name ≠ "..")
    (h : d.locate path = .ok place) : ∃ above, place = above ++ names := by
  unfold locate at h
  split at h
  next => cases h
  next =>
    split at h
    next => cases h
    next =>
      rw [hsteps] at h
      exact walk_append hnames h

theorem Disk.locate_join {d : Disk} {path : Path} {name : String} {place : Place}
    (hname : Path.IsProper name) (h : d.locate (path.join name) = .ok place) :
    ∃ above, place = above ++ [name] := by
  refine locate_append (Path.steps_join_of_isName path hname.1) ?_ h
  intro other hmem
  obtain rfl := List.mem_singleton.mp hmem
  exact hname.2

/-! ## §2. The names of capture files. -/

namespace Repository

/-- What the names of both capture files of a direction begin with. -/
def stem (d : Direction) (id : ExchangeId) : String := id.text ++ "_" ++ d.name

theorem spillName_eq (d : Direction) (id : ExchangeId) : spillName d id = stem d id ++ ".raw" := rfl

theorem emergencyName_eq (d : Direction) (id : ExchangeId) :
    emergencyName d id = stem d id ++ ".error" ++ ".raw" := by
  simp [emergencyName, stem, String.append_assoc]

/-- The last character of a stem tells the direction. -/
theorem getLast?_stem (d : Direction) (id : ExchangeId) :
    (stem d id).toList.getLast? = some (match d with | .request => 't' | .response => 'e') := by
  cases d <;> simp [stem, Direction.name, String.toList_append, List.getLast?_append]

theorem stem_inj {d d' : Direction} {id id' : ExchangeId} (h : stem d id = stem d' id') :
    d = d' ∧ id = id' := by
  -- a request ends in `t` and a response in `e`, so the directions agree
  have hlast := getLast?_stem d id
  rw [h, getLast?_stem] at hlast
  have hd : d = d' := by
    cases d <;> cases d' <;> first | rfl | simp at hlast
  subst hd
  refine ⟨rfl, ?_⟩
  -- and then so do the texts before the directions
  cases id with
  | mk text =>
      cases id' with
      | mk text' =>
          simp only [stem, ← String.toList_inj, String.toList_append, List.append_assoc] at h
          rw [String.toList_inj.mp (List.append_cancel_right h)]

/-- A spill belongs to one direction of one exchange. -/
theorem spillName_inj {d d' : Direction} {id id' : ExchangeId}
    (h : spillName d id = spillName d' id') : d = d' ∧ id = id' := by
  rw [spillName_eq, spillName_eq, ← String.toList_inj, String.toList_append,
    String.toList_append] at h
  exact stem_inj (String.toList_inj.mp (List.append_cancel_right h))

/-- So does a file saved in an emergency. -/
theorem emergencyName_inj {d d' : Direction} {id id' : ExchangeId}
    (h : emergencyName d id = emergencyName d' id') : d = d' ∧ id = id' := by
  simp only [emergencyName_eq, ← String.toList_inj, String.toList_append, List.append_assoc] at h
  exact stem_inj (String.toList_inj.mp (List.append_cancel_right h))

/-- The stem of a spill would have to end in `r`. -/
theorem spillName_ne_emergencyName (d d' : Direction) (id id' : ExchangeId) :
    spillName d id ≠ emergencyName d' id' := by
  intro h
  rw [spillName_eq, emergencyName_eq, ← String.toList_inj, String.toList_append,
    String.toList_append] at h
  -- without `.raw` one name is a stem, and the other ends in `.error`
  have hstem := congrArg List.getLast? (List.append_cancel_right h)
  rw [getLast?_stem, String.toList_append] at hstem
  cases d <;> simp [List.getLast?_append] at hstem

theorem getLast?_spillName (d : Direction) (id : ExchangeId) :
    (spillName d id).toList.getLast? = some 'w' := by
  simp [spillName_eq, String.toList_append, List.getLast?_append]

theorem getLast?_emergencyName (d : Direction) (id : ExchangeId) :
    (emergencyName d id).toList.getLast? = some 'w' := by
  simp [emergencyName_eq, String.toList_append, List.getLast?_append]

theorem getLast?_artifactName (d : Direction) :
    (Store.artifactName d).toList.getLast? = some 'p' := by
  cases d <;> simp [Store.artifactName, Direction.name]

theorem artifactName_ne_spillName (d d' : Direction) (id : ExchangeId) :
    Store.artifactName d ≠ spillName d' id := by
  intro h
  have hlast := getLast?_artifactName d
  rw [h, getLast?_spillName] at hlast
  simp at hlast

theorem artifactName_ne_emergencyName (d d' : Direction) (id : ExchangeId) :
    Store.artifactName d ≠ emergencyName d' id := by
  intro h
  have hlast := getLast?_artifactName d
  rw [h, getLast?_emergencyName] at hlast
  simp at hlast

end Repository

/-! ## §3. They are names. -/

namespace Path

/-- A text without slashes that ends in no point is a proper name. -/
theorem isProper_of_getLast? {name : String} {c : Char} (hlast : name.toList.getLast? = some c)
    (hc : c ≠ '.') (hslash : '/' ∉ name.toList) : IsProper name := by
  -- both names that lead nowhere end in a point
  have hpoint : ∀ s : String, s.toList.getLast? = some '.' → name ≠ s := by
    rintro s hs rfl
    rw [hs] at hlast
    exact hc (by simpa using hlast.symm)
  refine ⟨?_, hpoint "." (by simp), hpoint ".." (by simp)⟩
  simp only [isName, Bool.and_eq_true, bne_iff_ne, List.all_eq_true, ne_eq]
  refine ⟨?_, ?_⟩
  · rintro rfl
    simp at hlast
  · rintro x hx rfl
    exact hslash hx

end Path

namespace Repository

theorem slash_not_mem_stem {id : ExchangeId} (h : id.isPathSafe = true) (d : Direction) :
    '/' ∉ (stem d id).toList := by
  -- a safe identifier has no slash, and the directions have none
  have hid : '/' ∉ id.text.toList := by
    intro hmem
    simp only [ExchangeId.isPathSafe, Bool.and_eq_true, List.all_eq_true] at h
    exact absurd (h.2 _ hmem) (by decide)
  cases d <;> simp [stem, Direction.name, String.toList_append, hid]

theorem isProper_spillName {id : ExchangeId} (h : id.isPathSafe = true) (d : Direction) :
    Path.IsProper (spillName d id) := by
  refine Path.isProper_of_getLast? (getLast?_spillName d id) (by decide) ?_
  simp [spillName_eq, String.toList_append, slash_not_mem_stem h d]

theorem isProper_emergencyName {id : ExchangeId} (h : id.isPathSafe = true) (d : Direction) :
    Path.IsProper (emergencyName d id) := by
  refine Path.isProper_of_getLast? (getLast?_emergencyName d id) (by decide) ?_
  simp [emergencyName_eq, String.toList_append, slash_not_mem_stem h d]

theorem isProper_artifactName (d : Direction) : Path.IsProper (Store.artifactName d) := by
  refine Path.isProper_of_getLast? (getLast?_artifactName d) (by decide) ?_
  cases d <;> simp [Store.artifactName, Direction.name]

end Repository

end Wiretap
