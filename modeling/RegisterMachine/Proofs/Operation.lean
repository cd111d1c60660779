import RegisterMachine.Engine

/-!
Contract: engines as they are seen from outside.

A user acts on an engine by operations and sees, after each of them, its answer,
the machine, the breakpoints, the reason of a halt and the host. Why an engine
has paused is not seen, except in the answer of the operation that paused it.

Owns: operations, what is observed of them, and sequences of them.
Does not own: engines that cannot be told apart (`Proofs.Restoration`).
-/

namespace RegisterMachine

/-- What a user can do with an engine. -/
inductive Operation where
  | step (count : Nat)
  | run (fuel : Nat)
  | halt
  | jump (address : Nat)
  | write (address value : Word)
  | setRegister (register : Register) (value : Word)
  | push (value : Word)
  | pop
  | addBreakpoint (address : Nat)
  | removeBreakpoint (address : Nat)
  | clearBreakpoints
  | load (image : Bytes)
  | restore (machine : Machine)
deriving DecidableEq, Repr

/-- A halted machine stays as it was halted. -/
def Operation.keepsHalt : Operation → Bool
  | .halt | .jump _ | .load _ | .restore _ => false
  | _ => true

/-- What an operation tells. -/
inductive Answer where
  | done
  | ended (outcome : Outcome)
  | ran (outcome? : Option Outcome) (steps : Nat)
  | popped (top : Option Word)
  | changed (changed : Bool)
deriving DecidableEq, Repr

/-- An engine and its host after an operation. -/
structure Operated (H : Type) where
  answer : Answer
  engine : Engine
  host : H

/-- An operation, and what happens to the host before it. -/
structure Turn (H : Type) where
  prepare : H → H
  operation : Operation

/-- The number of turns that keep the halt of a machine. -/
def Turn.inHalt {H : Type} : List (Turn H) → Nat
  | [] => 0
  | turn :: later => if turn.operation.keepsHalt then inHalt later + 1 else 0

/-- What is seen after an operation. -/
structure Observation (H : Type) where
  answer : Answer
  machine : Machine
  breakpoints : Breakpoints
  haltReason? : Option HaltReason
  host : H

def Operated.observation {H : Type} (operated : Operated H) : Observation H where
  answer := operated.answer
  machine := operated.engine.machine
  breakpoints := operated.engine.breakpoints
  haltReason? := operated.engine.haltReason?
  host := operated.host

namespace Engine

variable {H : Type} [Host H]

def operate (engine : Engine) (host : H) : Operation → Operated H
  | .step count =>
      let progress := engine.step host count
      ⟨.ended progress.outcome, progress.engine, progress.host⟩
  | .run fuel =>
      let run := engine.run host fuel
      ⟨.ran run.outcome? run.steps, run.engine, run.host⟩
  | .halt => ⟨.ended engine.requestHalt.1, engine.requestHalt.2, host⟩
  | .jump address => ⟨.done, engine.jump address, host⟩
  | .write address value => ⟨.done, engine.write address value, host⟩
  | .setRegister register value => ⟨.done, engine.setRegister register value, host⟩
  | .push value => ⟨.done, engine.push value, host⟩
  | .pop => ⟨.popped engine.pop.1, engine.pop.2, host⟩
  | .addBreakpoint address =>
      ⟨.changed (engine.addBreakpoint address).1, (engine.addBreakpoint address).2, host⟩
  | .removeBreakpoint address =>
      ⟨.changed (engine.removeBreakpoint address).1, (engine.removeBreakpoint address).2, host⟩
  | .clearBreakpoints => ⟨.done, engine.clearBreakpoints, host⟩
  | .load image => ⟨.done, engine.load image, host⟩
  | .restore machine => ⟨.done, engine.restore machine, host⟩

/-- Takes turns and tells what is seen after each of them. -/
def replay (engine : Engine) (host : H) : List (Turn H) → List (Observation H)
  | [] => []
  | turn :: later =>
      let operated := engine.operate (turn.prepare host) turn.operation
      operated.observation :: operated.engine.replay operated.host later

end Engine

/-! ## Halts that are only known from a saved machine -/

def Outcome.asRestored : Outcome → Outcome
  | .halted code _ => .halted code .restored
  | outcome => outcome

def Answer.asRestored : Answer → Answer
  | .ended outcome => .ended outcome.asRestored
  | .ran outcome? steps => .ran (outcome?.map .asRestored) steps
  | answer => answer

/-- The same, except that a halt is said to be that of a restored machine. -/
def Observation.asRestored {H : Type} (observation : Observation H) : Observation H where
  answer := observation.answer.asRestored
  machine := observation.machine
  breakpoints := observation.breakpoints
  haltReason? := observation.haltReason?.map fun _ => .restored
  host := observation.host

end RegisterMachine
