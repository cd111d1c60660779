import RegisterMachine.Json.Failure
import RegisterMachine.Machine

/-!
Contract: saved machines.

A snapshot holds everything that a machine consists of, under a version number
that tells how it is written. There is one version.

Owns: the version, `SnapshotError` and its wording.
Does not own: the text of a snapshot (`Snapshot.Printer`, `Snapshot.Reader`).
-/

namespace RegisterMachine

/-- Why a text gives no machine. -/
inductive SnapshotError where
  | unsupportedVersion (version : Word)
  | malformed (cause : Json.Failure)
deriving DecidableEq, Repr

def SnapshotError.message : SnapshotError → String
  | .unsupportedVersion version => s!"unsupported snapshot version {version.toNat}"
  | .malformed cause => "malformed snapshot: " ++ cause.message

namespace Snapshot

/-- The version that is written. -/
def version : Word := 1

/-- Accepts a version that can be read. -/
def checkVersion (found : Word) : Except SnapshotError Word :=
  if found = version then .ok found else .error (.unsupportedVersion found)

end Snapshot

end RegisterMachine
