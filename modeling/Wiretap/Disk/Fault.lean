/-
  Wiretap.Disk.Fault
  ──────────────────
  **WHAT CAN GO WRONG ON A DISK.**

  A fault is one that the file system reports, with its number and text, or one that is
  known only by its kind.  The wording of each is `Fault.message`.
-/

namespace Wiretap

/-- A fault that the file system numbers. -/
inductive SystemFault
  /-- A name on the way does not exist. -/
  | missing
  /-- The name is taken already. -/
  | taken
  /-- A file stands where a directory is needed. -/
  | notADirectory
  /-- A directory stands where a file is needed. -/
  | isADirectory
  /-- The name of a directory ends in a point, which cannot be removed. -/
  | invalidArgument
  /-- A name is longer than a directory can hold, or a path than a request can. -/
  | nameTooLong
  deriving DecidableEq, Repr

/-- The number of a fault. -/
def SystemFault.number : SystemFault → Nat
  | .missing => 2
  | .taken => 17
  | .notADirectory => 20
  | .isADirectory => 21
  | .invalidArgument => 22
  | .nameTooLong => 36

/-- The text of a fault. -/
def SystemFault.text : SystemFault → String
  | .missing => "No such file or directory"
  | .taken => "File exists"
  | .notADirectory => "Not a directory"
  | .isADirectory => "Is a directory"
  | .invalidArgument => "Invalid argument"
  | .nameTooLong => "File name too long"

/-- Why a disk operation failed. -/
inductive Fault
  | system (fault : SystemFault)
  /-- The attempt was cut off and may be made again. -/
  | interrupted
  | permissionDenied
  | storageFull
  | wouldBlock
  | brokenPipe
  | timedOut
  | other
  /-- A path holds the character zero. -/
  | zeroInPath
  /-- A write made no progress. -/
  | writeZero
  /-- The content is not UTF-8. -/
  | notText
  deriving DecidableEq, Repr

/-- The wording of a fault. -/
def Fault.message : Fault → String
  | .system f => f.text ++ " (os error " ++ toString f.number ++ ")"
  | .interrupted => "operation interrupted"
  | .permissionDenied => "permission denied"
  | .storageFull => "no storage space"
  | .wouldBlock => "operation would block"
  | .brokenPipe => "broken pipe"
  | .timedOut => "timed out"
  | .other => "other error"
  | .zeroInPath => "file name contained an unexpected NUL byte"
  | .writeZero => "failed to write whole buffer"
  | .notText => "stream did not contain valid UTF-8"

end Wiretap
