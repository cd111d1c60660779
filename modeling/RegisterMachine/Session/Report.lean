import RegisterMachine.Engine

/-!
Contract: how a session ended.

Owns: `Report`, its text and its exit code.
Does not own: failures of the session itself (`Session.Error`).
-/

namespace RegisterMachine.Session

structure Report where
  /-- Completed if the step limit ended the run. -/
  stop : Outcome
  /-- The number of completed steps. -/
  steps : Nat
  result : Word
  pc : Option Nat
  /-- The trace line of the breakpoint that ended the run. -/
  breakpointLine : Option String
deriving DecidableEq, Repr

namespace Report

/-- The result of a halted machine, and zero for one that could go on. -/
def exitCode (report : Report) : Nat :=
  match report.stop with
  | .halted code _ => code.toNat
  | .completed => 0
  | .suspended _ => 0

def stopText (stop : Outcome) (pc : Nat) : String :=
  match stop with
  | .halted code reason => "halted: " ++ reason.message ++ s!" (code {code.toNat})"
  | .suspended .needsInput => s!"suspended: waiting for input at {pc}"
  | .suspended (.breakpoint address) => s!"suspended: breakpoint at {address}"
  | .completed => s!"stopped: step limit reached at {pc}"

def text (report : Report) : String :=
  stopText report.stop (report.pc.getD 0) ++ s!" after {report.steps} steps" ++
    (match report.breakpointLine with
      | some line => "\n" ++ line
      | none => "")

end Report

end RegisterMachine.Session
