import RegisterMachine.Breakpoints
import RegisterMachine.Execute

/-!
Contract: a machine under control.

One cycle fetches, decodes and executes one instruction. A cycle that stops at
a breakpoint or finds no input leaves the program counter where it was, so the
next cycle begins with the same instruction. A run repeats cycles until one
does not complete or the step limit is reached; since a program may run for
ever, a run is given fuel and tells when that is spent.

Owns: `Engine`, its outcomes, `cycle`, `step`, `run` and the edits from outside.
Does not own: saved machines (`Snapshot`), which `Engine.restore` only takes.
-/

namespace RegisterMachine

structure EngineConfig where
  /-- The host is told of every fetched instruction. -/
  tracing : Bool
  /-- The most instructions that one run completes. -/
  stepLimit : Option Nat
deriving DecidableEq, Repr

namespace EngineConfig

/-- Tracing without a step limit. -/
def standard : EngineConfig := ⟨true, none⟩

end EngineConfig

/-- Why a machine has paused without halting. -/
inductive Suspension where
  | needsInput
  | breakpoint (address : Nat)
deriving DecidableEq, Repr

/-- How an attempt to run some cycles ended. -/
inductive Outcome where
  /-- Every cycle was completed. -/
  | completed
  | suspended (cause : Suspension)
  | halted (code : Word) (reason : HaltReason)
deriving DecidableEq, Repr

def Outcome.isCompleted : Outcome → Bool
  | .completed => true
  | _ => false

/-- Where an engine stands between cycles. -/
inductive RunState where
  | running
  | suspended (cause : Suspension)
  | halted (code : Word)
deriving DecidableEq, Repr

structure Engine where
  machine : Machine
  breakpoints : Breakpoints
  config : EngineConfig
  /-- Why the last cycle paused, until the next one begins. -/
  suspension : Option Suspension
  /-- Why the machine halted, while it is halted. -/
  reason : Option HaltReason
deriving DecidableEq, Repr

/-- An engine and its host after some cycles. -/
structure Progress (H : Type) where
  outcome : Outcome
  engine : Engine
  host : H

/-- An engine and its host after a run; there is no outcome if the fuel was spent first. -/
structure Run (H : Type) where
  outcome? : Option Outcome
  steps : Nat
  engine : Engine
  host : H

namespace Engine

/-- An engine about to execute the first cell of a memory. -/
def fresh (memory : Memory) (config : EngineConfig) : Engine :=
  ⟨.fresh memory, .empty, config, none, none⟩

instance : Inhabited Engine := ⟨fresh .empty .standard⟩

/-- Replaces memory by a program image and forgets everything but the configuration. -/
def load (engine : Engine) (image : Bytes) : Engine :=
  { engine with
    machine := engine.machine.reset (.ofBytes image)
    breakpoints := engine.breakpoints.clear
    suspension := none
    reason := none }

def result (engine : Engine) : Word := engine.machine.result

def runState (engine : Engine) : RunState :=
  if engine.machine.isHalted then
    .halted engine.result
  else
    match engine.suspension with
    | some cause => .suspended cause
    | none => .running

/-- Why the machine is halted, while it is. -/
def haltReason? (engine : Engine) : Option HaltReason :=
  if engine.machine.isHalted then some (engine.reason.getD .restored) else none

/-! ## Edits from outside -/

/-- Moves the program counter and leaves any suspension or halt. -/
def jump (engine : Engine) (address : Nat) : Engine :=
  { engine with machine := engine.machine.goTo address, suspension := none, reason := none }

def write (engine : Engine) (address value : Word) : Engine :=
  { engine with machine := engine.machine.write address value }

def setRegister (engine : Engine) (register : Register) (value : Word) : Engine :=
  { engine with machine := engine.machine.setRegister register value }

def push (engine : Engine) (value : Word) : Engine :=
  { engine with machine := engine.machine.push value }

def pop (engine : Engine) : Option Word × Engine :=
  let (top, machine) := engine.machine.pop
  (top, { engine with machine })

def addBreakpoint (engine : Engine) (address : Nat) : Bool × Engine :=
  let (absent, breakpoints) := engine.breakpoints.add address
  (absent, { engine with breakpoints })

def removeBreakpoint (engine : Engine) (address : Nat) : Bool × Engine :=
  let (present, breakpoints) := engine.breakpoints.remove address
  (present, { engine with breakpoints })

def clearBreakpoints (engine : Engine) : Engine :=
  { engine with breakpoints := engine.breakpoints.clear }

/-- Puts another machine in the place of this one and keeps breakpoints and configuration. -/
def restore (engine : Engine) (machine : Machine) : Engine :=
  { engine with
    machine
    suspension := none
    reason := if machine.isHalted then some .restored else none }

/-! ## Cycles -/

/-- Halts the machine. -/
def finish (engine : Engine) (code : Word) (reason : HaltReason) : Engine :=
  { engine with machine := engine.machine.halt code, suspension := none, reason := some reason }

/-- Halts the machine at the wish of its user. -/
def requestHalt (engine : Engine) : Outcome × Engine :=
  (.halted haltedResult .requested, engine.finish haltedResult .requested)

section
variable {H : Type}

/-- Ends a cycle by halting. -/
def stop (engine : Engine) (host : H) (code : Word) (reason : HaltReason) : Progress H :=
  ⟨.halted code reason, engine.finish code reason, host⟩

/-- Ends a cycle by pausing. -/
def suspend (engine : Engine) (host : H) (cause : Suspension) : Progress H :=
  ⟨.suspended cause, { engine with suspension := some cause }, host⟩

variable [Host H]

/-- Tells the host of an instruction, if the engine traces. -/
def announce (tracing : Bool) (host : H) (instruction : Instruction) (registers : RegisterFile)
    (breaking : Bool) : H :=
  if tracing then Host.observe host ⟨instruction, registers, breaking⟩ else host

/-- Executes a fetched instruction and moves the program counter as its effect demands. -/
def perform (engine : Engine) (host : H) (instruction : Instruction) : Progress H :=
  match engine with
  | ⟨machine, breakpoints, config, suspension, reason⟩ =>
      match execute instruction machine host with
      | ⟨result, machine, host⟩ =>
          match result with
          | .ok .next =>
              ⟨.completed,
                ⟨machine.goTo instruction.next, breakpoints, config, suspension, reason⟩, host⟩
          | .ok (.jump address) =>
              ⟨.completed, ⟨machine.goTo address, breakpoints, config, suspension, reason⟩, host⟩
          | .ok .halt =>
              stop ⟨machine, breakpoints, config, suspension, reason⟩ host haltedResult .instruction
          | .ok .needsInput =>
              suspend ⟨machine, breakpoints, config, suspension, reason⟩ host .needsInput
          | .error fault =>
              stop ⟨machine, breakpoints, config, suspension, reason⟩ host fault.haltCode
                (.fault fault)

/-- Handles the instruction at the program counter. -/
def handle (engine : Engine) (host : H) (bypass : Bool) (instruction : Instruction) :
    Progress H :=
  let breaking := !bypass && engine.breakpoints.contains instruction.address
  let host := announce engine.config.tracing host instruction engine.machine.registers breaking
  if breaking then
    engine.suspend host (.breakpoint instruction.address)
  else
    engine.perform host instruction

/-- One cycle. With `bypass`, a breakpoint at the program counter is ignored. -/
def cycle (engine : Engine) (host : H) (bypass : Bool) : Progress H :=
  match engine.machine.pc with
  | none => ⟨.halted engine.result (engine.reason.getD .restored), engine, host⟩
  | some pc =>
      let engine := { engine with suspension := none }
      match decode engine.machine.memory pc with
      | .endOfProgram => engine.stop host engine.result .endOfProgram
      | .fault fault => engine.stop host fault.haltCode (.fault fault)
      | .instruction instruction => engine.handle host bypass instruction

/-- Attempts `count` cycles that obey breakpoints. -/
def cycles (engine : Engine) (host : H) : (count : Nat) → Progress H
  | 0 => ⟨.completed, engine, host⟩
  | count + 1 =>
      match engine.cycle host false with
      | ⟨.completed, engine, host⟩ => engine.cycles host count
      | stopped => stopped

/-- Attempts `count` cycles; a count of zero asks for one cycle that ignores breakpoints. -/
def step (engine : Engine) (host : H) (count : Nat) : Progress H :=
  if count = 0 then engine.cycle host true else engine.cycles host count

/-- No further step is allowed after this many. -/
def limitReached (engine : Engine) (steps : Nat) : Bool :=
  match engine.config.stepLimit with
  | some limit => decide (limit ≤ steps)
  | none => false

/-- Goes on with a run that has completed `steps` steps, for as long as the fuel lasts. -/
def resume (engine : Engine) (host : H) (steps : Nat) : (fuel : Nat) → Run H
  | 0 => ⟨none, steps, engine, host⟩
  | fuel + 1 =>
      if engine.limitReached steps then
        ⟨some .completed, steps, engine, host⟩
      else
        match engine.cycle host false with
        | ⟨.completed, engine, host⟩ => engine.resume host (steps + 1) fuel
        | ⟨outcome, engine, host⟩ => ⟨some outcome, steps, engine, host⟩

/-- Repeats cycles until one does not complete or the step limit is reached. -/
def run (engine : Engine) (host : H) (fuel : Nat) : Run H := engine.resume host 0 fuel

end

end Engine

end RegisterMachine
