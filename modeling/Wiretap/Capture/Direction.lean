/-
  Wiretap.Capture.Direction
  ─────────────────────────
  **THE TWO HALVES OF AN EXCHANGE.**
-/

namespace Wiretap

/-- Half of an exchange. -/
inductive Direction
  | request
  | response
  deriving DecidableEq, Repr

namespace Direction

/-- Both, the request first. -/
def all : List Direction := [.request, .response]

/-- The written form. -/
def name : Direction → String
  | .request => "request"
  | .response => "response"

/-- The direction with a written form. -/
def ofName? : String → Option Direction
  | "request" => some .request
  | "response" => some .response
  | _ => none

/-- The position in an array with a slot for each. -/
def index : Direction → Nat
  | .request => 0
  | .response => 1

end Direction

/-- One value for each direction. -/
structure PerDirection (α : Type) where
  request : α
  response : α
  deriving DecidableEq, Repr

namespace PerDirection

variable {α : Type}

/-- The same value for both directions. -/
def both (a : α) : PerDirection α := ⟨a, a⟩

/-- The value of a direction. -/
def of (p : PerDirection α) : Direction → α
  | .request => p.request
  | .response => p.response

/-- With another value for a direction. -/
def set (p : PerDirection α) (d : Direction) (a : α) : PerDirection α :=
  match d with
  | .request => { p with request := a }
  | .response => { p with response := a }

/-- With the value of a direction changed. -/
def modify (p : PerDirection α) (d : Direction) (f : α → α) : PerDirection α :=
  p.set d (f (p.of d))

@[simp] theorem of_both (a : α) (d : Direction) : (both a).of d = a := by cases d <;> rfl

@[simp] theorem of_modify (p : PerDirection α) (d e : Direction) (f : α → α) :
    (p.modify d f).of e = if d = e then f (p.of e) else p.of e := by
  cases d <;> cases e <;> rfl

end PerDirection

end Wiretap
