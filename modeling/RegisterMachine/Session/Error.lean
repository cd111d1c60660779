import RegisterMachine.Files
import RegisterMachine.Snapshot

/-!
Contract: why a session gives no report.

A fault of the machine is none of these: it is reported as a halt.

Owns: `Session.Error` and its wording.
Does not own: when an error arises (`Session`).
-/

namespace RegisterMachine.Session

/-- Why output was not written. -/
inductive OutputError where
  | sinkFull (kept : Nat)
  | file (error : FileError)
deriving DecidableEq, Repr

def OutputError.message : OutputError → String
  | .sinkFull kept => s!"sink full at {kept}"
  | .file error => error.message

inductive Error where
  | file (path : String) (error : FileError)
  | output (error : OutputError)
  | snapshot (path : String) (error : SnapshotError)
  /-- The fuel was spent before the machine stopped. -/
  | unfinished
deriving DecidableEq, Repr

def Error.message : Error → String
  | .file path error => path ++ ": " ++ error.message
  | .output error => "output error: " ++ error.message
  | .snapshot path error => path ++ ": " ++ error.message
  | .unfinished => "the machine did not stop"

end RegisterMachine.Session
