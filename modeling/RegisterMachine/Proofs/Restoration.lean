import RegisterMachine.Host.Buffered
import RegisterMachine.Proofs.Cycle
import RegisterMachine.Proofs.Operation
import RegisterMachine.Proofs.Snapshot.RoundTrip

/-!
Contract: an engine that takes over a saved machine goes on as the saved one.

A snapshot holds neither why an engine paused nor why it halted. The former is
forgotten by every cycle. The latter is only told: whoever watches both engines
sees another reason until the halt is left, and nothing else.

Owns: engines that cannot be told apart, and the halt of a restored machine.
Does not own: the text of a snapshot (`Proofs.Snapshot`).
-/

namespace RegisterMachine

/-- An operation that neither makes cycles nor concerns a halt. -/
def Operation.edits : Operation → Bool
  | .write _ _ | .setRegister _ _ | .push _ | .pop => true
  | .addBreakpoint _ | .removeBreakpoint _ | .clearBreakpoints => true
  | _ => false

/-- Two engines that cannot be told apart from outside. -/
structure Engine.Interchangeable (left right : Engine) : Prop where
  machine : left.machine = right.machine
  breakpoints : left.breakpoints = right.breakpoints
  config : left.config = right.config
  reason : left.machine.pc = none →
    left.reason.getD .restored = right.reason.getD .restored

/-- Two cycles that cannot be told apart from outside. -/
structure Progress.Interchangeable {H : Type} (left right : Progress H) : Prop where
  outcome : left.outcome = right.outcome
  engine : left.engine.Interchangeable right.engine
  host : left.host = right.host

/-- Two runs that cannot be told apart from outside. -/
structure Run.Interchangeable {H : Type} (left right : Run H) : Prop where
  outcome? : left.outcome? = right.outcome?
  steps : left.steps = right.steps
  engine : left.engine.Interchangeable right.engine
  host : left.host = right.host

/-- Two operations that cannot be told apart from outside. -/
structure Operated.Interchangeable {H : Type} (left right : Operated H) : Prop where
  answer : left.answer = right.answer
  engine : left.engine.Interchangeable right.engine
  host : left.host = right.host

/-- The second engine has the halted machine of the first one, but not the reason of its halt. -/
structure Engine.HaltRestored (saved restored : Engine) : Prop where
  halted : saved.machine.pc = none
  machine : saved.machine = restored.machine
  breakpoints : saved.breakpoints = restored.breakpoints
  config : saved.config = restored.config
  reason : restored.reason.getD .restored = .restored

/-- The second operation tells the halt that the first one tells as that of a restored machine. -/
structure Operated.HaltRestored {H : Type} (saved restored : Operated H) : Prop where
  answer : restored.answer = saved.answer.asRestored
  engine : saved.engine.HaltRestored restored.engine
  host : saved.host = restored.host

/-! ## What is seen of them -/

theorem Engine.Interchangeable.haltReason? {left right : Engine}
    (same : left.Interchangeable right) :
    left.haltReason? = right.haltReason? := by
  unfold Engine.haltReason?
  rw [← same.machine]
  cases counter : left.machine.pc with
  | none => rw [same.reason counter]
  | some pc =>
      simp only [Machine.isHalted, counter, Option.isNone_some, Bool.false_eq_true, if_false]

theorem Engine.HaltRestored.haltReason? {saved restored : Engine}
    (same : saved.HaltRestored restored) :
    restored.haltReason? = saved.haltReason?.map fun _ => .restored := by
  have halted : saved.machine.isHalted = true := by
    rw [Machine.isHalted, same.halted]
    rfl
  rw [Engine.haltReason?, Engine.haltReason?, ← same.machine, halted, same.reason]
  rfl

theorem Operated.Interchangeable.observation {H : Type} {left right : Operated H}
    (same : left.Interchangeable right) : left.observation = right.observation := by
  unfold Operated.observation
  simp only [same.answer, same.host, same.engine.machine, same.engine.breakpoints,
    same.engine.haltReason?]

theorem Operated.HaltRestored.observation {H : Type} {saved restored : Operated H}
    (same : saved.HaltRestored restored) :
    restored.observation = saved.observation.asRestored := by
  unfold Operated.observation Observation.asRestored
  simp only [same.answer, same.host, same.engine.machine, same.engine.breakpoints,
    same.engine.haltReason?]

namespace Engine

/-! ## Cycles -/

theorem interchangeable_refl (engine : Engine) : engine.Interchangeable engine :=
  ⟨rfl, rfl, rfl, fun _ => rfl⟩

theorem Interchangeable.symm {left right : Engine} (same : left.Interchangeable right) :
    right.Interchangeable left where
  machine := same.machine.symm
  breakpoints := same.breakpoints.symm
  config := same.config.symm
  reason halted := (same.reason (same.machine ▸ halted)).symm

/-- While the machine is not halted, neither pause nor reason matters. -/
theorem interchangeable_of_counter (engine : Engine) {pc : Nat}
    (counter : engine.machine.pc = some pc) (suspension : Option Suspension)
    (reason : Option HaltReason) :
    engine.Interchangeable { engine with suspension, reason } := by
  refine ⟨rfl, rfl, rfl, ?_⟩
  intro halted
  rw [counter] at halted
  contradiction

theorem suspend_interchangeable (engine : Engine) {pc : Nat}
    (counter : engine.machine.pc = some pc) (suspension : Option Suspension)
    (reason : Option HaltReason) {H : Type} (host : H) (cause : Suspension) :
    (engine.suspend host cause).Interchangeable
      ({ engine with suspension, reason }.suspend host cause) := by
  refine ⟨rfl, ?_, rfl⟩
  exact interchangeable_of_counter { engine with suspension := some cause } counter _ reason

variable {left right : Engine}

theorem Interchangeable.exists_eq (same : left.Interchangeable right) :
    right = { left with suspension := right.suspension, reason := right.reason } := by
  obtain ⟨machineEq, breakpointsEq, configEq, _⟩ := same
  rw [machineEq, breakpointsEq, configEq]

section
variable {H : Type} [Host H]

theorem perform_interchangeable (engine : Engine) {pc : Nat}
    (counter : engine.machine.pc = some pc) (suspension : Option Suspension)
    (reason : Option HaltReason) (host : H) (instruction : Instruction) :
    (engine.perform host instruction).Interchangeable
      ({ engine with suspension, reason }.perform host instruction) := by
  rw [perform_eq_conclude, perform_eq_conclude]
  simp only
  cases result : (execute instruction engine.machine host).result with
  | error fault =>
      simp only [conclude, result]
      exact ⟨rfl, ⟨rfl, rfl, rfl, fun _ => rfl⟩, rfl⟩
  | ok effect =>
      cases effect with
      | next =>
          simp only [conclude, result]
          exact ⟨rfl, interchangeable_of_counter _ rfl _ _, rfl⟩
      | jump address =>
          simp only [conclude, result]
          exact ⟨rfl, interchangeable_of_counter _ rfl _ _, rfl⟩
      | halt =>
          simp only [conclude, result]
          exact ⟨rfl, ⟨rfl, rfl, rfl, fun _ => rfl⟩, rfl⟩
      | needsInput =>
          rw [execute_of_needsInput result]
          exact suspend_interchangeable engine counter suspension reason host .needsInput

theorem handle_interchangeable (engine : Engine) {pc : Nat}
    (counter : engine.machine.pc = some pc) (suspension : Option Suspension)
    (reason : Option HaltReason) (host : H) (bypass : Bool) (instruction : Instruction) :
    (engine.handle host bypass instruction).Interchangeable
      ({ engine with suspension, reason }.handle host bypass instruction) := by
  unfold handle
  simp only
  split
  · exact suspend_interchangeable engine counter suspension reason _ _
  · exact perform_interchangeable engine counter suspension reason _ instruction

theorem cycle_interchangeable (same : left.Interchangeable right) (host : H) (bypass : Bool) :
    (left.cycle host bypass).Interchangeable (right.cycle host bypass) := by
  cases counter : left.machine.pc with
  | none =>
      have rightCounter : right.machine.pc = none := by rw [← same.machine, counter]
      rw [cycle_of_halted counter, cycle_of_halted rightCounter]
      refine ⟨?_, same, rfl⟩
      rw [haltedOutcome, haltedOutcome, same.reason counter, result, result, same.machine]
  | some pc =>
      rw [same.exists_eq]
      unfold cycle
      simp only [counter]
      cases decode left.machine.memory pc with
      | endOfProgram => exact ⟨rfl, ⟨rfl, rfl, rfl, fun _ => rfl⟩, rfl⟩
      | fault fault => exact ⟨rfl, ⟨rfl, rfl, rfl, fun _ => rfl⟩, rfl⟩
      | instruction instruction =>
          exact handle_interchangeable { left with suspension := none } counter none right.reason
            host bypass instruction

/-! ## Runs -/

theorem cycles_interchangeable (same : left.Interchangeable right) (host : H) (count : Nat) :
    (left.cycles host count).Interchangeable (right.cycles host count) := by
  induction count generalizing left right host with
  | zero => exact ⟨rfl, same, rfl⟩
  | succ count inductionHypothesis =>
      have cycled := cycle_interchangeable same host false
      rcases leftCycle : left.cycle host false with ⟨outcome, leftNext, next⟩
      rcases rightCycle : right.cycle host false with ⟨rightOutcome, rightNext, rightHost⟩
      rw [leftCycle, rightCycle] at cycled
      obtain ⟨rfl, nextSame, rfl⟩ := cycled
      simp only [cycles, leftCycle, rightCycle]
      cases outcome with
      | completed => exact inductionHypothesis nextSame next
      | suspended cause => exact ⟨rfl, nextSame, rfl⟩
      | halted code reason => exact ⟨rfl, nextSame, rfl⟩

theorem step_interchangeable (same : left.Interchangeable right) (host : H) (count : Nat) :
    (left.step host count).Interchangeable (right.step host count) := by
  unfold step
  split
  · exact cycle_interchangeable same host true
  · exact cycles_interchangeable same host count

theorem resume_interchangeable (same : left.Interchangeable right) (host : H)
    (steps fuel : Nat) :
    (left.resume host steps fuel).Interchangeable (right.resume host steps fuel) := by
  induction fuel generalizing left right host steps with
  | zero => exact ⟨rfl, rfl, same, rfl⟩
  | succ fuel inductionHypothesis =>
      have cycled := cycle_interchangeable same host false
      have limits : left.limitReached steps = right.limitReached steps := by
        rw [limitReached, limitReached, same.config]
      rcases leftCycle : left.cycle host false with ⟨outcome, leftNext, next⟩
      rcases rightCycle : right.cycle host false with ⟨rightOutcome, rightNext, rightHost⟩
      rw [leftCycle, rightCycle] at cycled
      obtain ⟨rfl, nextSame, rfl⟩ := cycled
      simp only [resume, leftCycle, rightCycle, limits]
      split
      · exact ⟨rfl, rfl, same, rfl⟩
      · cases outcome with
        | completed => exact inductionHypothesis nextSame next (steps + 1)
        | suspended cause => exact ⟨rfl, rfl, nextSame, rfl⟩
        | halted code reason => exact ⟨rfl, rfl, nextSame, rfl⟩

/-! ## Operations -/

/-- An edit neither looks at pause and reason nor changes them. -/
theorem operate_edit (engine : Engine) (suspension : Option Suspension)
    (reason : Option HaltReason) (host : H) {operation : Operation}
    (edits : operation.edits = true) :
    { engine with suspension, reason }.operate host operation =
      ⟨(engine.operate host operation).answer,
        { (engine.operate host operation).engine with suspension, reason },
        (engine.operate host operation).host⟩ := by
  cases operation with
  | write _ _ | setRegister _ _ | push _ | pop => rfl
  | addBreakpoint _ | removeBreakpoint _ | clearBreakpoints => rfl
  | step _ | run _ | halt | jump _ | load _ | restore _ => contradiction

theorem pc_operate_edit (engine : Engine) (host : H) {operation : Operation}
    (edits : operation.edits = true) :
    (engine.operate host operation).engine.machine.pc = engine.machine.pc := by
  cases operation with
  | write _ _ | setRegister _ _ | push _ => rfl
  | pop =>
      show engine.machine.pop.2.pc = engine.machine.pc
      unfold Machine.pop
      split <;> rfl
  | addBreakpoint _ | removeBreakpoint _ | clearBreakpoints => rfl
  | step _ | run _ | halt | jump _ | load _ | restore _ => contradiction

theorem reason_operate_edit (engine : Engine) (host : H) {operation : Operation}
    (edits : operation.edits = true) :
    (engine.operate host operation).engine.reason = engine.reason := by
  have same := operate_edit engine engine.suspension engine.reason host edits
  exact congrArg (·.engine.reason) same

/-- What leaves a halt, or halts, does not look at pause and reason. -/
theorem operate_leaving (engine : Engine) (suspension : Option Suspension)
    (reason : Option HaltReason) (host : H) {operation : Operation}
    (leaves : operation.keepsHalt = false) :
    { engine with suspension, reason }.operate host operation =
      engine.operate host operation := by
  cases operation with
  | halt | jump _ | load _ | restore _ => rfl
  | step _ | run _ | write _ _ | setRegister _ _ | push _ | pop => contradiction
  | addBreakpoint _ | removeBreakpoint _ | clearBreakpoints => contradiction

theorem operate_interchangeable (same : left.Interchangeable right) (host : H)
    (operation : Operation) :
    (left.operate host operation).Interchangeable (right.operate host operation) := by
  by_cases edits : operation.edits = true
  · rw [same.exists_eq, operate_edit left right.suspension right.reason host edits]
    refine ⟨rfl, ⟨rfl, rfl, rfl, ?_⟩, rfl⟩
    intro halted
    rw [pc_operate_edit left host edits] at halted
    rw [reason_operate_edit left host edits]
    exact same.reason halted
  · by_cases keeps : operation.keepsHalt = true
    · cases operation with
      | step count =>
          have stepped := step_interchangeable same host count
          exact ⟨congrArg Answer.ended stepped.outcome, stepped.engine, stepped.host⟩
      | run fuel =>
          have ran := resume_interchangeable same host 0 fuel
          refine ⟨?_, ran.engine, ran.host⟩
          simp only [operate, Engine.run, ran.outcome?, ran.steps]
      | _ => contradiction
    · have leaves : operation.keepsHalt = false := Bool.eq_false_iff.mpr keeps
      rw [same.exists_eq, operate_leaving left right.suspension right.reason host leaves]
      exact ⟨rfl, interchangeable_refl _, rfl⟩

theorem replay_interchangeable (same : left.Interchangeable right) (host : H)
    (turns : List (Turn H)) : left.replay host turns = right.replay host turns := by
  induction turns generalizing left right host with
  | nil => rfl
  | cons turn later inductionHypothesis =>
      have operated := operate_interchangeable same (turn.prepare host) turn.operation
      simp only [replay]
      rw [operated.observation, inductionHypothesis operated.engine, operated.host]

/-! ## The halt of a restored machine -/

variable {saved restored : Engine}

theorem HaltRestored.exists_eq (same : saved.HaltRestored restored) :
    restored = { saved with suspension := restored.suspension, reason := restored.reason } := by
  obtain ⟨_, machineEq, breakpointsEq, configEq, _⟩ := same
  rw [machineEq, breakpointsEq, configEq]

theorem HaltRestored.haltedOutcome (same : saved.HaltRestored restored) :
    restored.haltedOutcome = saved.haltedOutcome.asRestored := by
  rw [Engine.haltedOutcome, same.reason, result, ← same.machine]
  rfl

/-- As long as the halt is kept, only its reason is told differently. -/
theorem operate_haltRestored (same : saved.HaltRestored restored) (host : H)
    {operation : Operation} (keeps : operation.keepsHalt = true) :
    Operated.HaltRestored (saved.operate host operation) (restored.operate host operation) := by
  have restoredHalted : restored.machine.pc = none := by rw [← same.machine, same.halted]
  by_cases edits : operation.edits = true
  · have answer : (saved.operate host operation).answer =
        (saved.operate host operation).answer.asRestored := by
      cases operation with
      | step _ | run _ | halt => contradiction
      | _ => rfl
    rw [same.exists_eq, operate_edit saved restored.suspension restored.reason host edits]
    refine ⟨answer, ⟨?_, rfl, rfl, rfl, same.reason⟩, rfl⟩
    rw [pc_operate_edit saved host edits]
    exact same.halted
  · cases operation with
    | step count =>
        simp only [operate, step_of_halted same.halted, step_of_halted restoredHalted]
        exact ⟨congrArg Answer.ended same.haltedOutcome, same, rfl⟩
    | run fuel =>
        have limits : restored.limitReached 0 = saved.limitReached 0 := by
          rw [limitReached, limitReached, same.config]
        simp only [operate, run_of_halted same.halted, run_of_halted restoredHalted, limits]
        refine ⟨?_, same, rfl⟩
        rw [same.haltedOutcome, Answer.asRestored]
        split
        · rfl
        · split <;> rfl
    | _ => contradiction

/-- The halt is told differently for as long as it is kept, and then all is the same. -/
theorem replay_haltRestored (same : saved.HaltRestored restored) (host : H)
    (turns : List (Turn H)) :
    restored.replay host turns =
      ((saved.replay host turns).take (Turn.inHalt turns)).map .asRestored ++
        (saved.replay host turns).drop (Turn.inHalt turns) := by
  induction turns generalizing saved restored host with
  | nil => rfl
  | cons turn later inductionHypothesis =>
      by_cases keeps : turn.operation.keepsHalt = true
      · have operated := operate_haltRestored same (turn.prepare host) keeps
        have goesOn := inductionHypothesis operated.engine
        rw [Turn.inHalt, if_pos keeps, replay, replay, operated.observation, goesOn, operated.host]
        rfl
      · have leaves : turn.operation.keepsHalt = false := Bool.eq_false_iff.mpr keeps
        rw [Turn.inHalt, if_neg keeps, same.exists_eq]
        simp only [replay]
        rw [operate_leaving saved restored.suspension restored.reason _ leaves]
        rfl

/-! ## Restored machines -/

theorem interchangeable_restore {engine other : Engine}
    (breakpoints : other.breakpoints = engine.breakpoints) (config : other.config = engine.config)
    {pc : Nat} (counter : engine.machine.pc = some pc) :
    engine.Interchangeable (other.restore engine.machine) := by
  refine ⟨rfl, breakpoints.symm, config.symm, ?_⟩
  intro halted
  rw [counter] at halted
  contradiction

theorem haltRestored_restore {engine other : Engine}
    (breakpoints : other.breakpoints = engine.breakpoints) (config : other.config = engine.config)
    (halted : engine.machine.pc = none) :
    engine.HaltRestored (other.restore engine.machine) := by
  refine ⟨halted, rfl, breakpoints.symm, config.symm, ?_⟩
  rw [restore]
  split <;> rfl

/-- An engine that takes over the machine of another one from its snapshot goes on as the other one
does, whatever it did before and whatever is done with both. If the machine was halted, the reason
of the halt is not known, until an operation leaves the halt or halts anew. -/
theorem exists_replay_restore {engine other : Engine}
    (breakpoints : other.breakpoints = engine.breakpoints) (config : other.config = engine.config)
    (addressable : engine.machine.Addressable) :
    ∃ machine, Snapshot.decode (Snapshot.encode engine.machine) = .ok machine ∧
      ∀ (host : H) (turns : List (Turn H)),
        (other.restore machine).replay host turns =
          let kept := if engine.machine.isHalted then Turn.inHalt turns else 0
          ((engine.replay host turns).take kept).map .asRestored ++
            (engine.replay host turns).drop kept := by
  refine ⟨engine.machine, ?_, ?_⟩
  · exact Snapshot.decode_of_readings (Snapshot.readAll_readProbe_encode engine.machine)
      (Snapshot.readAll_readMachine_encode addressable)
  · intro host turns
    cases counter : engine.machine.pc with
    | none =>
        have halted : engine.machine.isHalted = true := by
          rw [Machine.isHalted, counter]
          rfl
        rw [replay_haltRestored (haltRestored_restore breakpoints config counter), halted]
        rfl
    | some pc =>
        have running : engine.machine.isHalted = false := by
          rw [Machine.isHalted, counter]
          rfl
        rw [← replay_interchangeable (interchangeable_restore breakpoints config counter), running]
        rfl

end

/-- Has executed `halt`. -/
def stopped : Engine := ((fresh (.ofList [0]) .standard).run (BufferedHost.start false) 1).engine

/-- Waits for input. -/
def waiting : Engine :=
  ((fresh (.ofList [20, 32768]) .standard).run (BufferedHost.start false) 1).engine

theorem exists_replay_restore_of_stopped :
    ∃ machine, Snapshot.decode (Snapshot.encode stopped.machine) = .ok machine ∧
      ∀ (host : BufferedHost) (turns : List (Turn BufferedHost)),
        (waiting.restore machine).replay host turns =
          ((stopped.replay host turns).take (Turn.inHalt turns)).map .asRestored ++
            (stopped.replay host turns).drop (Turn.inHalt turns) := by
  have addressable : stopped.machine.Addressable := by
    intro address stands
    contradiction
  exact exists_replay_restore rfl rfl addressable

end Engine

end RegisterMachine
