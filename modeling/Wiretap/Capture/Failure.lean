/-
  Wiretap.Capture.Failure
  ───────────────────────
  **WHY A CAPTURE FAILS.**
-/
import Wiretap.Capture.ExchangeId
import Wiretap.Disk.Fault
import Wiretap.Disk.Path

namespace Wiretap

/-- Why a buffer cannot be written or archived. -/
inductive CaptureFailure
  /-- A file or directory could not be used. -/
  | disk (path : Path) (fault : Fault)
  /-- The spill file could not be opened. -/
  | spillover (path : Path) (fault : Fault)
  /-- A file took nothing in so many attempts in a row. -/
  | stalled (path : Path) (offset attempts : Nat)
  /-- The identifier cannot be a file name. -/
  | unusableId (id : ExchangeId)
  deriving DecidableEq, Repr

/-- The wording of a failure. -/
def CaptureFailure.message : CaptureFailure → String
  | .disk path fault => "capture I/O error on " ++ path.text ++ ": " ++ fault.message
  | .spillover path fault => "spillover to " ++ path.text ++ " failed: " ++ fault.message
  | .stalled path offset attempts =>
    "write to " ++ path.text ++ " stalled at offset " ++ toString offset ++ " after "
      ++ toString attempts ++ " attempts"
  | .unusableId id => "exchange id " ++ id.debugText ++ " cannot be used as a storage path"

end Wiretap
