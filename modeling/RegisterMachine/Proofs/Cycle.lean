import RegisterMachine.Engine
import RegisterMachine.Proofs.Execution

/-!
Contract: what a cycle depends on.

A cycle forgets why the last one paused, and looks at the breakpoints only to
decide whether a fetched instruction is executed. So the cycle of an engine
with breakpoints is that of the engine without them, except where a breakpoint
stands at the program counter and an instruction can be fetched there.

Owns: cycles by what they begin with, their independence of suspension and
breakpoints, and what steps and runs keep because every cycle does.
Does not own: the influence of the host (`Proofs.HostSimulation`).
-/

namespace RegisterMachine

/-- The same progress with another engine. -/
def Progress.mapEngine {H : Type} (change : Engine → Engine) (progress : Progress H) :
    Progress H :=
  ⟨progress.outcome, change progress.engine, progress.host⟩

/-- The same run with another engine. -/
def Run.mapEngine {H : Type} (change : Engine → Engine) (run : Run H) : Run H :=
  ⟨run.outcome?, run.steps, change run.engine, run.host⟩

namespace Engine

def withBreakpoints (engine : Engine) (breakpoints : Breakpoints) : Engine :=
  { engine with breakpoints }

section
variable {H : Type}

/-- How a cycle ends after the execution of its instruction. -/
def conclude (engine : Engine) (instruction : Instruction) (execution : Execution H) :
    Progress H :=
  let executed := { engine with machine := execution.machine }
  match execution.result with
  | .ok .next =>
      ⟨.completed, { engine with machine := execution.machine.goTo instruction.next },
        execution.host⟩
  | .ok (.jump address) =>
      ⟨.completed, { engine with machine := execution.machine.goTo address }, execution.host⟩
  | .ok .halt => executed.stop execution.host haltedResult .instruction
  | .ok .needsInput => executed.suspend execution.host .needsInput
  | .error fault => executed.stop execution.host fault.haltCode (.fault fault)

theorem conclude_withBreakpoints (engine : Engine) (breakpoints : Breakpoints)
    (instruction : Instruction) (execution : Execution H) :
    (engine.withBreakpoints breakpoints).conclude instruction execution =
      (engine.conclude instruction execution).mapEngine (·.withBreakpoints breakpoints) := by
  unfold conclude
  split <;> rfl

theorem conclude_not_breakpoint (engine : Engine) (instruction : Instruction)
    (execution : Execution H) (address : Nat) :
    (engine.conclude instruction execution).outcome ≠ .suspended (.breakpoint address) := by
  unfold conclude
  split <;> simp [stop, suspend]

theorem result_of_conclude_needsInput {engine : Engine} {instruction : Instruction}
    {execution : Execution H}
    (wants : (engine.conclude instruction execution).outcome = .suspended .needsInput) :
    execution.result = .ok .needsInput := by
  unfold conclude at wants
  split at wants
  · cases wants
  · cases wants
  · cases wants
  · next waits => exact waits
  · cases wants

theorem settings_conclude (engine : Engine) (instruction : Instruction)
    (execution : Execution H) :
    (engine.conclude instruction execution).engine.config = engine.config ∧
      (engine.conclude instruction execution).engine.breakpoints = engine.breakpoints := by
  unfold conclude
  split <;> exact ⟨rfl, rfl⟩

variable [Host H]

/-! ## What is found at the program counter -/

/-- The outcome of every cycle of a halted machine. -/
def haltedOutcome (engine : Engine) : Outcome :=
  .halted engine.result (engine.reason.getD .restored)

theorem cycle_of_halted {engine : Engine} {host : H} {bypass : Bool}
    (halted : engine.machine.pc = none) :
    engine.cycle host bypass = ⟨engine.haltedOutcome, engine, host⟩ := by
  unfold cycle
  rw [halted]
  rfl

/-- All that a cycle can begin with: the machine is halted, it halts because there is no
instruction, or there is one to be handled. -/
inductive CycleStart (engine : Engine) : Prop where
  | halted
      (counter : engine.machine.pc = none)
      (cycles : ∀ {H : Type} [Host H] (host : H) (bypass : Bool),
        engine.cycle host bypass = ⟨engine.haltedOutcome, engine, host⟩)
  | stops {pc : Nat} (code : Word) (reason : HaltReason)
      (counter : engine.machine.pc = some pc)
      (cycles : ∀ {H : Type} [Host H] (host : H) (bypass : Bool),
        engine.cycle host bypass = engine.stop host code reason)
  | fetches {instruction : Instruction}
      (counter : engine.machine.pc = some instruction.address)
      (fetched : decode engine.machine.memory instruction.address = .instruction instruction)
      (cycles : ∀ {H : Type} [Host H] (host : H) (bypass : Bool),
        engine.cycle host bypass =
          { engine with suspension := none }.handle host bypass instruction)

theorem address_of_decode {memory : Memory} {address : Nat} {instruction : Instruction}
    (found : decode memory address = .instruction instruction) :
    instruction.address = address := by
  unfold decode at found
  split at found
  · contradiction
  · split at found
    · contradiction
    · split at found
      · contradiction
      · cases found
        rfl

theorem cycleStart (engine : Engine) : engine.CycleStart := by
  cases counter : engine.machine.pc with
  | none => exact .halted counter fun _ _ => cycle_of_halted counter
  | some pc =>
      cases found : decode engine.machine.memory pc with
      | endOfProgram =>
          refine .stops engine.result .endOfProgram counter ?_
          intro H _ host bypass
          simp only [cycle, counter, found]
          rfl
      | fault fault =>
          refine .stops fault.haltCode (.fault fault) counter ?_
          intro H _ host bypass
          simp only [cycle, counter, found]
          rfl
      | instruction instruction =>
          have address := address_of_decode found
          subst address
          refine .fetches counter found ?_
          intro H _ host bypass
          simp only [cycle, counter, found]

/-- A cycle forgets why the last one paused. -/
theorem cycle_forgets_suspension (engine : Engine) (suspension : Option Suspension) (host : H)
    (bypass : Bool) {pc : Nat} (counter : engine.machine.pc = some pc) :
    { engine with suspension }.cycle host bypass = engine.cycle host bypass := by
  unfold cycle
  simp only [counter]

/-! ## Breakpoints -/

theorem perform_eq_conclude (engine : Engine) (host : H) (instruction : Instruction) :
    engine.perform host instruction =
      engine.conclude instruction (execute instruction engine.machine host) := by
  rfl

theorem handle_bypass (engine : Engine) (host : H) (instruction : Instruction) :
    engine.handle host true instruction =
      engine.conclude instruction
        (execute instruction engine.machine
          (announce engine.config.tracing host instruction engine.machine.registers false)) := by
  rfl

theorem handle_bypass_withBreakpoints (engine : Engine) (breakpoints : Breakpoints) (host : H)
    (instruction : Instruction) :
    (engine.withBreakpoints breakpoints).handle host true instruction =
      (engine.handle host true instruction).mapEngine (·.withBreakpoints breakpoints) := by
  exact conclude_withBreakpoints engine breakpoints instruction _

/-- A cycle that ignores breakpoints is the same for every set of them. -/
theorem cycle_bypass_withBreakpoints (engine : Engine) (breakpoints : Breakpoints) (host : H) :
    (engine.withBreakpoints breakpoints).cycle host true =
      (engine.cycle host true).mapEngine (·.withBreakpoints breakpoints) := by
  unfold cycle
  cases counter : engine.machine.pc with
  | none =>
      simp only [withBreakpoints, counter]
      rfl
  | some pc =>
      simp only [withBreakpoints, counter]
      cases found : decode engine.machine.memory pc with
      | endOfProgram => rfl
      | fault fault => rfl
      | instruction instruction =>
          exact handle_bypass_withBreakpoints { engine with suspension := none } breakpoints host
            instruction

/-- A breakpoint at the program counter keeps an instruction from being executed. -/
structure Intercepts (engine : Engine) (instruction : Instruction) : Prop where
  counter : engine.machine.pc = some instruction.address
  fetched : decode engine.machine.memory instruction.address = .instruction instruction
  member : instruction.address ∈ engine.breakpoints

/-- The pause of an intercepted instruction. -/
def intercept (engine : Engine) (host : H) (instruction : Instruction) : Progress H :=
  engine.suspend (announce engine.config.tracing host instruction engine.machine.registers true)
    (.breakpoint instruction.address)

theorem cycle_of_intercepts {engine : Engine} {instruction : Instruction} (host : H)
    (intercepts : engine.Intercepts instruction) :
    engine.cycle host false = engine.intercept host instruction := by
  have breaking : engine.breakpoints.contains instruction.address = true :=
    decide_eq_true intercepts.member
  unfold cycle
  simp only [intercepts.counter, intercepts.fetched, handle, Bool.not_false, Bool.true_and,
    breaking, if_true]
  rfl

/-- A cycle that obeys breakpoints ignores them, unless one of them intercepts an instruction. -/
theorem cycle_eq_bypass_or_intercepts (engine : Engine) :
    (∀ host : H, engine.cycle host false = engine.cycle host true) ∨
      ∃ instruction, engine.Intercepts instruction := by
  cases engine.cycleStart with
  | halted _ cycles | stops _ _ _ cycles =>
      left
      intro host
      rw [cycles, cycles]
  | @fetches instruction counter fetched cycles =>
      by_cases member : instruction.address ∈ engine.breakpoints
      · right
        exact ⟨instruction, counter, fetched, member⟩
      · left
        intro host
        have passing : engine.breakpoints.contains instruction.address = false :=
          decide_eq_false member
        rw [cycles, cycles]
        simp only [handle, passing, Bool.and_false]

theorem cycle_clearBreakpoints (engine : Engine) (host : H) :
    engine.clearBreakpoints.cycle host false =
      (engine.cycle host true).mapEngine (·.withBreakpoints .empty) := by
  rcases cycle_eq_bypass_or_intercepts (H := H) engine.clearBreakpoints with same | intercepted
  · rw [same host]
    exact cycle_bypass_withBreakpoints engine .empty host
  · obtain ⟨instruction, intercepts⟩ := intercepted
    exact absurd intercepts.member List.not_mem_nil

/-- No breakpoint pauses a cycle that ignores breakpoints. -/
theorem cycle_bypass_not_breakpoint (engine : Engine) (host : H) (address : Nat) :
    (engine.cycle host true).outcome ≠ .suspended (.breakpoint address) := by
  cases engine.cycleStart with
  | halted _ cycles | stops _ _ _ cycles =>
      rw [cycles]
      intro equal
      contradiction
  | @fetches instruction _ _ cycles =>
      rw [cycles, handle_bypass]
      exact conclude_not_breakpoint _ instruction _ address

/-! ## Input -/

/-- A cycle that wants input has announced its instruction and noted why it paused. -/
theorem handle_of_needsInput {engine : Engine} {host : H} {bypass : Bool}
    {instruction : Instruction}
    (wants : (engine.handle host bypass instruction).outcome = .suspended .needsInput) :
    engine.handle host bypass instruction =
      ⟨.suspended .needsInput, { engine with suspension := some .needsInput },
        announce engine.config.tracing host instruction engine.machine.registers false⟩ := by
  unfold handle at wants ⊢
  simp only at wants ⊢
  cases breaking : !bypass && engine.breakpoints.contains instruction.address with
  | true =>
      simp only [breaking, if_true] at wants
      cases wants
  | false =>
      simp only [breaking, Bool.false_eq_true, if_false, perform_eq_conclude] at wants ⊢
      rw [execute_of_needsInput (result_of_conclude_needsInput wants)]
      rfl

theorem cycle_of_needsInput {engine : Engine} {host : H} {bypass : Bool}
    (wants : (engine.cycle host bypass).outcome = .suspended .needsInput) :
    ∃ instruction, engine.machine.pc = some instruction.address ∧
      engine.cycle host bypass =
        ⟨.suspended .needsInput, { engine with suspension := some .needsInput },
          announce engine.config.tracing host instruction engine.machine.registers false⟩ := by
  cases engine.cycleStart with
  | halted _ cycles | stops _ _ _ cycles =>
      rw [cycles] at wants
      contradiction
  | @fetches instruction counter _ cycles =>
      rw [cycles] at wants
      refine ⟨instruction, counter, ?_⟩
      rw [cycles]
      exact handle_of_needsInput wants

/-! ## Halted machines -/

theorem step_of_halted {engine : Engine} (halted : engine.machine.pc = none) (host : H)
    (count : Nat) : engine.step host count = ⟨engine.haltedOutcome, engine, host⟩ := by
  cases count with
  | zero => exact cycle_of_halted halted
  | succ count =>
      show engine.cycles host (count + 1) = _
      rw [cycles, cycle_of_halted halted]
      rfl

theorem run_of_halted {engine : Engine} (halted : engine.machine.pc = none) (host : H)
    (fuel : Nat) :
    engine.run host fuel =
      ⟨if fuel = 0 then none
        else if engine.limitReached 0 then some .completed
        else some engine.haltedOutcome, 0, engine, host⟩ := by
  cases fuel with
  | zero => rfl
  | succ fuel =>
      rw [run, resume, cycle_of_halted halted]
      cases engine.limitReached 0 <;> rfl

/-! ## What every cycle keeps -/

/-- A cycle leaves configuration and breakpoints alone. -/
theorem settings_cycle (engine : Engine) (host : H) (bypass : Bool) :
    (engine.cycle host bypass).engine.config = engine.config ∧
      (engine.cycle host bypass).engine.breakpoints = engine.breakpoints := by
  cases engine.cycleStart with
  | halted _ cycles | stops _ _ _ cycles =>
      rw [cycles]
      exact ⟨rfl, rfl⟩
  | @fetches instruction _ _ cycles =>
      rw [cycles]
      unfold handle
      simp only
      split
      · exact ⟨rfl, rfl⟩
      · rw [perform_eq_conclude]
        exact settings_conclude _ instruction _

/-- A relation between an engine and what becomes of it that every cycle keeps. -/
structure KeptByCycles (related : Engine → Engine → Prop) : Prop where
  refl : ∀ engine, related engine engine
  trans : ∀ {first middle last}, related first middle → related middle last → related first last
  cycle : ∀ {H : Type} [Host H] (engine : Engine) (host : H) (bypass : Bool),
    related engine (engine.cycle host bypass).engine

namespace KeptByCycles

variable {related : Engine → Engine → Prop}

theorem cycles (kept : KeptByCycles related) (engine : Engine) (host : H) (count : Nat) :
    related engine (engine.cycles host count).engine := by
  induction count generalizing engine host with
  | zero => exact kept.refl engine
  | succ count inductionHypothesis =>
      have first := kept.cycle engine host false
      rcases cycled : engine.cycle host false with ⟨outcome, next, nextHost⟩
      rw [cycled] at first
      rw [Engine.cycles, cycled]
      cases outcome with
      | completed => exact kept.trans first (inductionHypothesis next nextHost)
      | suspended _ | halted _ _ => exact first

theorem step (kept : KeptByCycles related) (engine : Engine) (host : H) (count : Nat) :
    related engine (engine.step host count).engine := by
  unfold Engine.step
  split
  · exact kept.cycle engine host true
  · exact kept.cycles engine host count

theorem resume (kept : KeptByCycles related) (engine : Engine) (host : H) (steps fuel : Nat) :
    related engine (engine.resume host steps fuel).engine := by
  induction fuel generalizing engine host steps with
  | zero => exact kept.refl engine
  | succ fuel inductionHypothesis =>
      have first := kept.cycle engine host false
      rcases cycled : engine.cycle host false with ⟨outcome, next, nextHost⟩
      rw [cycled] at first
      rw [Engine.resume, cycled]
      split
      · exact kept.refl engine
      · cases outcome with
        | completed => exact kept.trans first (inductionHypothesis next nextHost (steps + 1))
        | suspended _ | halted _ _ => exact first

theorem run (kept : KeptByCycles related) (engine : Engine) (host : H) (fuel : Nat) :
    related engine (engine.run host fuel).engine :=
  kept.resume engine host 0 fuel

end KeptByCycles

theorem keptByCycles_settings :
    KeptByCycles fun engine after =>
      after.config = engine.config ∧ after.breakpoints = engine.breakpoints where
  refl _ := ⟨rfl, rfl⟩
  trans earlier later := ⟨later.1.trans earlier.1, later.2.trans earlier.2⟩
  cycle engine host bypass := settings_cycle engine host bypass

/-! ## Runs without a step limit -/

theorem resume_of_completed {engine next : Engine} {host nextHost : H} (steps fuel : Nat)
    (unlimited : engine.config.stepLimit = none)
    (completed : engine.cycle host false = ⟨.completed, next, nextHost⟩) :
    engine.resume host steps (fuel + 1) = next.resume nextHost (steps + 1) fuel := by
  simp only [resume, limitReached, unlimited, completed, Bool.false_eq_true, if_false]

theorem resume_of_stopped {engine last : Engine} {host lastHost : H} {outcome : Outcome}
    (steps fuel : Nat) (unlimited : engine.config.stepLimit = none)
    (stopped : engine.cycle host false = ⟨outcome, last, lastHost⟩)
    (incomplete : outcome ≠ .completed) :
    engine.resume host steps (fuel + 1) = ⟨some outcome, steps, last, lastHost⟩ := by
  simp only [resume, limitReached, unlimited, stopped, Bool.false_eq_true, if_false]

/-- What happens next does not depend on why the engine paused. -/
theorem resume_forgets_suspension (engine : Engine) (suspension : Option Suspension) (host : H)
    (steps fuel : Nat) {pc : Nat} (unlimited : engine.config.stepLimit = none)
    (counter : engine.machine.pc = some pc) :
    { engine with suspension }.resume host steps (fuel + 1) =
      engine.resume host steps (fuel + 1) := by
  have forgets := cycle_forgets_suspension engine suspension host false counter
  simp only [resume, limitReached, unlimited, forgets, Bool.false_eq_true, if_false]

theorem le_steps_resume (engine : Engine) (host : H) (steps fuel : Nat) :
    steps ≤ (engine.resume host steps fuel).steps := by
  induction fuel generalizing engine host steps with
  | zero => exact Nat.le_refl _
  | succ fuel inductionHypothesis =>
      unfold resume
      split
      · exact Nat.le_refl _
      · split
        · next next nextHost _ =>
            exact Nat.le_trans (Nat.le_succ steps) (inductionHypothesis next nextHost (steps + 1))
        · exact Nat.le_refl _

end

end Engine

end RegisterMachine
