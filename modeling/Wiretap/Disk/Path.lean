/-
  Wiretap.Disk.Path
  ─────────────────
  **PATHS.**

  A path is a text as it was configured and the names put below it since.  Its written
  form joins them with slashes; its steps are the names between the slashes.

    • `steps_join_of_isName` — joining one name adds that name to the steps.
-/

namespace Wiretap

/-- A path: a configured text and names below it. -/
structure Path where
  base : String
  below : List String
  deriving DecidableEq, Repr

namespace Path

/-! ## §1. Pieces of a text. -/

/-- The pieces of a text between its slashes; `piece` holds the current one, last first. -/
def splitSlash (piece : List Char) : List Char → List String
  | [] => [String.ofList piece.reverse]
  | c :: rest =>
    if c = '/' then String.ofList piece.reverse :: splitSlash [] rest
    else splitSlash (c :: piece) rest

/-- The names of a text, in order; two slashes enclose no name. -/
def stepsOf (text : String) : List String := (splitSlash [] text.toList).filter (· != "")

/-- Whether a text is one name: not empty and without a slash. -/
def isName (text : String) : Bool := text != "" && text.toList.all (· != '/')

theorem splitSlash_of_all (cs : List Char) (h : ∀ c ∈ cs, c ≠ '/') (piece : List Char) :
    splitSlash piece cs = [String.ofList (piece.reverse ++ cs)] := by
  induction cs generalizing piece with
  | nil => simp [splitSlash]
  | cons c rest ih =>
    simp only [List.mem_cons, forall_eq_or_imp] at h
    simp [splitSlash, h.1, ih h.2]

/-- The only step of a name is the name. -/
theorem stepsOf_of_isName {name : String} (h : isName name = true) : stepsOf name = [name] := by
  simp only [isName, Bool.and_eq_true, bne_iff_ne, List.all_eq_true] at h
  rw [stepsOf, splitSlash_of_all _ h.2]
  simpa using h.1

/-! ## §2. Paths. -/

/-- The path that a text writes. -/
def ofText (text : String) : Path := ⟨text, []⟩

/-- One text put below another. -/
def joinText (base name : String) : String :=
  if base == "" || base.toList.getLast? == some '/' then base ++ name else base ++ "/" ++ name

/-- The written form. -/
def text (p : Path) : String := p.below.foldl joinText p.base

/-- A text put below the path; one that starts with a slash takes its place. -/
def join (p : Path) (name : String) : Path :=
  if name.toList.head? == some '/' then ofText name else ⟨p.base, p.below ++ [name]⟩

/-- The names to follow, in order. -/
def steps (p : Path) : List String := (p.base :: p.below).flatMap stepsOf

/-- Whether the path starts at the root. -/
def isAbsolute (p : Path) : Bool := p.text.toList.head? == some '/'

/-- Whether the path ends in a slash, and so can only name a directory. -/
def endsInSlash (p : Path) : Bool := p.text.toList.getLast? == some '/'

theorem join_of_isName (p : Path) {name : String} (h : isName name = true) :
    p.join name = ⟨p.base, p.below ++ [name]⟩ := by
  simp only [isName, Bool.and_eq_true, bne_iff_ne, List.all_eq_true] at h
  have : name.toList.head? ≠ some '/' := fun hc => h.2 _ (List.mem_of_mem_head? hc) rfl
  simp [join, this]

/-- Joining one name adds that name to the steps. -/
theorem steps_join_of_isName (p : Path) {name : String} (h : isName name = true) :
    (p.join name).steps = p.steps ++ [name] := by
  simp [join_of_isName p h, steps, stepsOf_of_isName h]

/-- Whether a point closes the path, which then names the directory before the point. -/
def endsInPoint (p : Path) : Bool := p.steps.getLast? == some "."

/-- Whether one point or two close the path. -/
def endsInPoints (p : Path) : Bool := p.endsInPoint || p.steps.getLast? == some ".."

/-- The pieces up to the last one that leads somewhere: an empty piece and a point do not. -/
def trimIdle (pieces : List String) : List String :=
  (pieces.reverse.dropWhile fun piece => piece == "" || piece == ".").reverse

/-- The path without its last name, the rest spelled as it was.  The root and the empty path
have none, and a point is a name only where a relative path begins with it. -/
def parent? (p : Path) : Option Path :=
  match splitSlash [] p.text.toList with
  | [] => none
  | first :: body =>
    match trimIdle body with
    | [] => if first == "" then none else some (ofText "")
    | names =>
      let above := trimIdle names.dropLast
      some (ofText (if above.isEmpty && p.isAbsolute then "/" else
        String.intercalate "/" (first :: above)))

end Path

end Wiretap
