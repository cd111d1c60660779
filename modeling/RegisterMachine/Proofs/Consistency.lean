import RegisterMachine.Host.Buffered
import RegisterMachine.Proofs.Cycle
import RegisterMachine.Proofs.Operation

/-!
Contract: program counter, suspension and halt reason of an engine agree.

Where a machine stands is recorded three times: by its program counter, by the
suspension and by the halt reason of its engine. Every cycle ends in one of
three ways, each of which sets all three records, so they agree in every engine
that operations can lead to, and a step leaves the engine in the state that its
outcome tells.

Owns: `Engine.Consistent`, `Progress.Settled`, `Engine.Reachable`.
Does not own: what an engine computes (`Proofs.Execution`, `Proofs.Cycle`).
-/

namespace RegisterMachine

/-- A halt for this reason comes with the result of a halted machine. -/
def HaltReason.setsResult : HaltReason → Bool
  | .instruction | .requested | .fault _ => true
  | .endOfProgram | .restored => false

/-- Where an engine stands after this outcome. -/
def Outcome.runState : Outcome → RunState
  | .completed => .running
  | .suspended cause => .suspended cause
  | .halted code _ => .halted code

def Outcome.haltReason? : Outcome → Option HaltReason
  | .completed | .suspended _ => none
  | .halted _ reason => some reason

/-- The records of an engine agree on where its machine stands. -/
structure Engine.Consistent (engine : Engine) : Prop where
  reason_iff : engine.reason.isSome = true ↔ engine.machine.pc = none
  unsuspended : engine.machine.pc = none → engine.suspension = none
  breakpoint : ∀ address, engine.suspension = some (.breakpoint address) →
    engine.machine.pc = some address
  result : ∀ reason, engine.reason = some reason → reason.setsResult = true →
    engine.machine.result = 1

/-- The engine stands where the outcome tells. -/
structure Progress.Settled {H : Type} (progress : Progress H) : Prop where
  consistent : progress.engine.Consistent
  runState : progress.engine.runState = progress.outcome.runState
  haltReason? : progress.engine.haltReason? = progress.outcome.haltReason?

/-- The engine results from operations on a new one, each of them on any host. A run whose fuel is
spent counts as well. -/
inductive Engine.Reachable : Engine → Prop where
  | fresh (memory : Memory) (config : EngineConfig) : Reachable (.fresh memory config)
  | operated {engine : Engine} {H : Type} [Host H] (host : H) (operation : Operation)
      (before : Reachable engine) : Reachable (engine.operate host operation).engine

namespace Engine

theorem consistent_fresh (memory : Memory) (config : EngineConfig) :
    (fresh memory config).Consistent := by
  refine ⟨?_, ?_, ?_, ?_⟩
  · exact ⟨nofun, nofun⟩
  · exact fun _ => rfl
  · exact fun _ => nofun
  · exact fun _ => nofun

/-- Only four parts of an engine matter. -/
theorem Consistent.congr {left right : Engine} (consistent : left.Consistent)
    (pc : right.machine.pc = left.machine.pc) (result : right.machine.result = left.machine.result)
    (suspension : right.suspension = left.suspension) (reason : right.reason = left.reason) :
    right.Consistent := by
  obtain ⟨reasonIff, unsuspended, breakpoint, resultOne⟩ := consistent
  refine ⟨?_, ?_, ?_, ?_⟩
  · rw [reason, pc]
    exact reasonIff
  · rw [suspension, pc]
    exact unsuspended
  · rw [suspension, pc]
    exact breakpoint
  · rw [reason, result]
    exact resultOne

theorem Consistent.reason_eq_none {engine : Engine} (consistent : engine.Consistent) {pc : Nat}
    (counter : engine.machine.pc = some pc) : engine.reason = none := by
  rw [← Option.not_isSome_iff_eq_none, consistent.reason_iff, counter]
  exact Option.some_ne_none pc

/-! ## The three ways in which a cycle ends -/

theorem consistent_finish (engine : Engine) {code : Word} {reason : HaltReason}
    (result : reason.setsResult = true → code = 1) : (engine.finish code reason).Consistent := by
  refine ⟨?_, ?_, ?_, ?_⟩
  · exact ⟨fun _ => rfl, fun _ => rfl⟩
  · exact fun _ => rfl
  · exact fun _ => nofun
  · intro other isReason sets
    cases isReason
    exact result sets

/-- An engine whose machine goes on has no halt reason, and pauses only where it stands. -/
theorem consistent_of_counter {engine : Engine} {pc : Nat}
    (counter : engine.machine.pc = some pc) (reason : engine.reason = none)
    (breakpoint : ∀ address, engine.suspension = some (.breakpoint address) → address = pc) :
    engine.Consistent := by
  refine ⟨?_, ?_, ?_, ?_⟩
  · rw [reason, counter]
    exact ⟨nofun, nofun⟩
  · rw [counter]
    exact nofun
  · intro address paused
    rw [counter, breakpoint address paused]
  · rw [reason]
    exact fun _ => nofun

section
variable {H : Type} {engine : Engine} {host : H}

theorem settled_stop (engine : Engine) (host : H) {code : Word} {reason : HaltReason}
    (result : reason.setsResult = true → code = 1) : (engine.stop host code reason).Settled :=
  ⟨consistent_finish engine result, rfl, rfl⟩

theorem settled_suspend {pc : Nat} {cause : Suspension}
    (counter : engine.machine.pc = some pc) (reason : engine.reason = none)
    (breakpoint : ∀ address, cause = .breakpoint address → address = pc) :
    (engine.suspend host cause).Settled := by
  have running : engine.machine.isHalted = false := by
    rw [Machine.isHalted, counter]
    rfl
  refine ⟨?_, ?_, ?_⟩
  · refine consistent_of_counter counter ?_ ?_
    · exact reason
    · intro address paused
      exact breakpoint address (Option.some.inj paused)
  · simp only [suspend, runState, running, Bool.false_eq_true, if_false, Outcome.runState]
  · simp only [suspend, Engine.haltReason?, running, Bool.false_eq_true, if_false,
      Outcome.haltReason?]

theorem settled_completed (machine : Machine) (address : Nat) (reason : engine.reason = none)
    (suspension : engine.suspension = none) :
    (⟨.completed, { engine with machine := machine.goTo address }, host⟩ :
      Progress H).Settled := by
  refine ⟨?_, ?_, ?_⟩
  · refine consistent_of_counter rfl ?_ ?_
    · exact reason
    · intro paused isPaused
      rw [suspension] at isPaused
      contradiction
  · simp only [runState, Machine.isHalted, Machine.goTo, Option.isNone_some, Bool.false_eq_true,
      if_false, suspension, Outcome.runState]
  · rfl

/-! ## Steps -/

theorem settled_of_halted (consistent : engine.Consistent) (host : H)
    (halted : engine.machine.pc = none) : (⟨engine.haltedOutcome, engine, host⟩ :
      Progress H).Settled := by
  have isHalted : engine.machine.isHalted = true := by
    rw [Machine.isHalted, halted]
    rfl
  refine ⟨consistent, ?_, ?_⟩
  · rw [runState, if_pos isHalted]
    rfl
  · rw [Engine.haltReason?, if_pos isHalted]
    rfl

variable [Host H]

theorem settled_conclude {pc : Nat} (counter : engine.machine.pc = some pc)
    (reason : engine.reason = none) (suspension : engine.suspension = none)
    (instruction : Instruction) :
    (engine.conclude instruction (execute instruction engine.machine host)).Settled := by
  cases result : (execute instruction engine.machine host).result with
  | error fault =>
      simp only [conclude, result]
      exact settled_stop _ _ fun _ => rfl
  | ok effect =>
      cases effect with
      | next =>
          simp only [conclude, result]
          exact settled_completed _ _ reason suspension
      | jump address =>
          simp only [conclude, result]
          exact settled_completed _ _ reason suspension
      | halt =>
          simp only [conclude, result]
          exact settled_stop _ _ fun _ => rfl
      | needsInput =>
          -- The machine that waits is the one from before, so its counter is known.
          rw [execute_of_needsInput result]
          exact settled_suspend counter reason fun _ => nofun

theorem settled_handle {instruction : Instruction}
    (counter : engine.machine.pc = some instruction.address) (reason : engine.reason = none)
    (suspension : engine.suspension = none) (host : H) (bypass : Bool) :
    (engine.handle host bypass instruction).Settled := by
  unfold handle
  simp only
  split
  · apply settled_suspend counter reason
    intro address same
    cases same
    rfl
  · rw [perform_eq_conclude]
    exact settled_conclude counter reason suspension instruction

theorem settled_cycle (consistent : engine.Consistent) (host : H) (bypass : Bool) :
    (engine.cycle host bypass).Settled := by
  cases counter : engine.machine.pc with
  | none =>
      rw [cycle_of_halted counter]
      exact settled_of_halted consistent host counter
  | some pc =>
      have reason := consistent.reason_eq_none counter
      unfold cycle
      simp only [counter]
      cases found : decode engine.machine.memory pc with
      | endOfProgram => exact settled_stop _ _ nofun
      | fault fault => exact settled_stop _ _ fun _ => rfl
      | instruction instruction =>
          have address := address_of_decode found
          subst address
          apply settled_handle
          · exact counter
          · exact reason
          · rfl

theorem settled_cycles (consistent : engine.Consistent) (host : H) (count : Nat) :
    (engine.cycles host (count + 1)).Settled := by
  induction count generalizing engine host with
  | zero =>
      have settled := settled_cycle consistent host false
      rcases cycled : engine.cycle host false with ⟨outcome, next, nextHost⟩
      rw [cycled] at settled
      rw [cycles, cycled]
      cases outcome <;> exact settled
  | succ count inductionHypothesis =>
      have settled := settled_cycle consistent host false
      rcases cycled : engine.cycle host false with ⟨outcome, next, nextHost⟩
      rw [cycled] at settled
      rw [cycles, cycled]
      cases outcome with
      | completed => exact inductionHypothesis settled.consistent nextHost
      | suspended cause => exact settled
      | halted code reason => exact settled

theorem settled_step (consistent : engine.Consistent) (host : H) (count : Nat) :
    (engine.step host count).Settled := by
  cases count with
  | zero => exact settled_cycle consistent host true
  | succ count => exact settled_cycles consistent host count

/-! ## Operations -/

theorem keptByCycles_consistent :
    KeptByCycles fun engine after => engine.Consistent → after.Consistent where
  refl _ := id
  trans earlier later := later ∘ earlier
  cycle _ host bypass := fun consistent => (settled_cycle consistent host bypass).consistent

theorem consistent_jump (engine : Engine) (address : Nat) : (engine.jump address).Consistent :=
  consistent_of_counter rfl rfl fun _ => nofun

theorem consistent_restore (engine : Engine) (machine : Machine) :
    (engine.restore machine).Consistent := by
  cases counter : machine.pc with
  | none =>
      rw [restore, Machine.isHalted, counter]
      refine ⟨?_, ?_, ?_, ?_⟩
      · exact ⟨fun _ => counter, fun _ => rfl⟩
      · exact fun _ => rfl
      · exact fun _ => nofun
      · intro reason isRestored
        cases isRestored
        exact nofun
  | some pc =>
      rw [restore, Machine.isHalted, counter]
      exact consistent_of_counter counter rfl fun _ => nofun

theorem consistent_pop (consistent : engine.Consistent) : engine.pop.2.Consistent := by
  have same : engine.machine.pop.2.pc = engine.machine.pc ∧
      engine.machine.pop.2.result = engine.machine.result := by
    unfold Machine.pop
    split <;> exact ⟨rfl, rfl⟩
  exact consistent.congr same.1 same.2 rfl rfl

theorem consistent_operate (consistent : engine.Consistent) (host : H) (operation : Operation) :
    (engine.operate host operation).engine.Consistent := by
  cases operation with
  | step count => exact (settled_step consistent host count).consistent
  | run fuel => exact keptByCycles_consistent.run engine host fuel consistent
  | halt => exact consistent_finish engine fun _ => rfl
  | jump address => exact consistent_jump engine address
  | pop => exact consistent_pop consistent
  | load image => exact consistent_fresh (.ofBytes image) engine.config
  | restore machine => exact consistent_restore engine machine
  | write _ _ | setRegister _ _ | push _ => exact consistent.congr rfl rfl rfl rfl
  | addBreakpoint _ | removeBreakpoint _ | clearBreakpoints =>
      exact consistent.congr rfl rfl rfl rfl

theorem consistent_reachable (reachable : engine.Reachable) : engine.Consistent := by
  induction reachable with
  | fresh memory config => exact consistent_fresh memory config
  | operated host operation _ inductionHypothesis =>
      exact consistent_operate inductionHypothesis host operation

end

/-- Whatever has been done with an engine, its records agree, and a step of any count leaves it
where the outcome of the step tells. -/
theorem consistent_and_told_of_reachable {engine : Engine} (reachable : engine.Reachable) :
    engine.Consistent ∧
      ∀ {H : Type} [Host H] (host : H) (count : Nat),
        (engine.step host count).engine.runState = (engine.step host count).outcome.runState ∧
        (engine.step host count).engine.haltReason? =
          (engine.step host count).outcome.haltReason? := by
  have consistent := consistent_reachable reachable
  refine ⟨consistent, ?_⟩
  intro H _ host count
  have settled := settled_step consistent host count
  exact ⟨settled.runState, settled.haltReason?⟩

/-- The operations that lead to `intercepted`. -/
def beforeIntercepted : List Operation :=
  [.addBreakpoint 1, .run 5, .halt, .jump 0, .run 5]

/-- Paused at a breakpoint, after a halt on request. -/
def intercepted : Engine :=
  beforeIntercepted.foldl
    (fun engine operation => (engine.operate (BufferedHost.start true) operation).engine)
    (fresh (.ofList [21, 0]) .standard)

theorem consistent_and_told_of_intercepted :
    intercepted.Reachable ∧ intercepted.suspension = some (.breakpoint 1) ∧
      intercepted.Consistent ∧
      ∀ {H : Type} [Host H] (host : H) (count : Nat),
        (intercepted.step host count).engine.runState =
          (intercepted.step host count).outcome.runState ∧
        (intercepted.step host count).engine.haltReason? =
          (intercepted.step host count).outcome.haltReason? := by
  have reachable : intercepted.Reachable := by
    iterate 5 apply Reachable.operated
    exact .fresh _ _
  exact ⟨reachable, by decide, consistent_and_told_of_reachable reachable⟩

end Engine

end RegisterMachine
