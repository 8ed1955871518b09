/-
  Wiretap.Log.Result
  ──────────────────
  **WHAT SINKS REPORT.**

  A result is the list of errors that sinks reported, in order; an exchange is logged in
  full when there are none.  Results combine by appending.
-/

namespace Wiretap

/-- A failure of one sink. -/
structure SinkError where
  sink : String
  message : String
  deriving DecidableEq, Repr

/-- The wording of a failure. -/
def SinkError.text (e : SinkError) : String := "sink " ++ e.sink ++ " failed: " ++ e.message

/-- What one or more sinks reported. -/
structure SinkResult where
  errors : List SinkError
  deriving DecidableEq, Repr

namespace SinkResult

/-- No error. -/
def ok : SinkResult := ⟨[]⟩

/-- One error. -/
def failed (sink message : String) : SinkResult := ⟨[⟨sink, message⟩]⟩

/-- Whether there is no error. -/
def isOk (r : SinkResult) : Bool := r.errors.isEmpty

/-- The errors of one result and then those of another. -/
def combine (r s : SinkResult) : SinkResult := ⟨r.errors ++ s.errors⟩

/-- The results of several sinks as one. -/
def combineAll (rs : List SinkResult) : SinkResult := rs.foldl combine ok

end SinkResult

end Wiretap
