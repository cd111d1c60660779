/-!
Contract: what a session is asked to do.

Owns: `Plan`.
Does not own: how a plan is written on the command line (`Arguments`).
-/

namespace RegisterMachine.Session

structure Plan where
  /-- The file with the program image. -/
  program : String
  /-- The file with the snapshot to go on from. -/
  state : Option String
  /-- The file whose lines are queued as input. -/
  input : Option String
  /-- Lines that are queued after those of the file. -/
  send : List String
  /-- Queues what the user types after everything else. -/
  readInput : Bool
  breakpoints : List Nat
  /-- Begins with one step that ignores breakpoints. -/
  continueFirst : Bool
  /-- The most steps that the session takes. -/
  maxSteps : Option Nat
  /-- The file for a line per fetched instruction. -/
  trace : Option String
  /-- The file that the output is appended to. -/
  log : Option String
  /-- The file for a snapshot of the machine at the end. -/
  save : Option String
  /-- Observes no instruction at all. -/
  disableTrace : Bool
deriving DecidableEq, Repr

namespace Plan

/-- Runs a program without any option. -/
def plain (program : String) : Plan :=
  ⟨program, none, none, [], false, [], false, none, none, none, none, false⟩

/-- The first step counts against the most steps, so it is only taken if one is allowed. -/
def bypasses (plan : Plan) : Bool := plan.continueFirst && plan.maxSteps != some 0

/-- The most steps that may be taken after the first one. -/
def stepLimit (plan : Plan) : Option Nat :=
  if plan.bypasses then plan.maxSteps.map (· - 1) else plan.maxSteps

end Plan

end RegisterMachine.Session
