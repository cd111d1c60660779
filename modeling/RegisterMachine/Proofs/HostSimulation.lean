import RegisterMachine.Host.Buffered
import RegisterMachine.Proofs.Cycle
import RegisterMachine.Proofs.Execution

/-!
Contract: one engine on two hosts that cannot be told apart by what it does to
them.

A machine never looks at its host, except for the code that it takes. So if a
relation between two hosts survives printing, learning of an instruction and
taking a code, an engine does the same on both, and leaves related hosts behind.

Owns: what it means that two hosts serve alike; executions and cycles on related
hosts; what a buffered host hands out.
Does not own: particular relations (`Proofs.BreakpointPassing`,
`Proofs.InputDelivery`).
-/

namespace RegisterMachine

section
variable {H K : Type}

/-- Two executions that differ in their hosts alone. -/
structure Execution.Alike (related : H → K → Prop) (left : Execution H) (right : Execution K) :
    Prop where
  result : left.result = right.result
  machine : left.machine = right.machine
  host : related left.host right.host

/-- Two cycles that differ in their hosts alone. -/
structure Progress.Alike (related : H → K → Prop) (left : Progress H) (right : Progress K) :
    Prop where
  outcome : left.outcome = right.outcome
  engine : left.engine = right.engine
  host : related left.host right.host

variable {related : H → K → Prop} {left : H} {right : K}

theorem Progress.exists_eq_of_alike {outcome : Outcome} {engine : Engine} {progress : Progress K}
    (alike : Progress.Alike related ⟨outcome, engine, left⟩ progress) :
    ∃ host, related left host ∧ progress = ⟨outcome, engine, host⟩ := by
  obtain ⟨progressOutcome, progressEngine, host⟩ := progress
  obtain ⟨outcomeEq, engineEq, hosts⟩ := alike
  simp only at outcomeEq engineEq
  subst outcomeEq engineEq
  exact ⟨host, hosts, rfl⟩

theorem Engine.conclude_alike (engine : Engine) (instruction : Instruction)
    {leftExecution : Execution H} {rightExecution : Execution K}
    (executed : leftExecution.Alike related rightExecution) :
    (engine.conclude instruction leftExecution).Alike related
      (engine.conclude instruction rightExecution) := by
  obtain ⟨leftResult, leftMachine, leftHost⟩ := leftExecution
  obtain ⟨rightResult, rightMachine, rightHost⟩ := rightExecution
  obtain ⟨resultEq, machineEq, hosts⟩ := executed
  simp only at resultEq machineEq
  subst resultEq machineEq
  unfold conclude
  simp only
  split <;> exact ⟨rfl, rfl, hosts⟩

/-! ## Relations that hosts keep -/

variable [Host H] [Host K]

/-- Both hosts hand out the same code, or neither has one. -/
inductive TakesAlike (related : H → K → Prop) (left : H) (right : K) : Prop where
  | exhausted
      (leftEmpty : Host.take? left = none)
      (rightEmpty : Host.take? right = none)
  | supplied {code : Word} {leftRest : H} {rightRest : K}
      (leftTakes : Host.take? left = some (code, leftRest))
      (rightTakes : Host.take? right = some (code, rightRest))
      (restRelated : related leftRest rightRest)

/-- The relation survives what a host is told while no breakpoint is hit. -/
structure ToldAlike (related : H → K → Prop) : Prop where
  emit : ∀ {left : H} {right : K} (code : Word), related left right →
    related (Host.emit left code) (Host.emit right code)
  observe : ∀ {left : H} {right : K} (event : TraceEvent), event.breaking = false →
    related left right → related (Host.observe left event) (Host.observe right event)

theorem announce_alike (told : ToldAlike related) (tracing : Bool) (instruction : Instruction)
    (registers : RegisterFile) (hosts : related left right) :
    related (Engine.announce tracing left instruction registers false)
      (Engine.announce tracing right instruction registers false) := by
  unfold Engine.announce
  split
  · exact told.observe _ rfl hosts
  · exact hosts

private theorem receive_alike (instruction : Instruction) (machine : Machine)
    (hosts : related left right) (takes : TakesAlike related left right) :
    (receive instruction machine left).Alike related (receive instruction machine right) := by
  unfold receive
  cases takes with
  | exhausted leftEmpty rightEmpty =>
      rw [leftEmpty, rightEmpty]
      exact ⟨rfl, rfl, hosts⟩
  | supplied leftTakes rightTakes restRelated =>
      rw [leftTakes, rightTakes]
      simp only
      split <;> exact ⟨rfl, rfl, restRelated⟩

/-- An instruction does the same on related hosts; only `in` needs that they hand out alike. -/
theorem execute_alike
    (emits : ∀ {left : H} {right : K} (code : Word), related left right →
      related (Host.emit left code) (Host.emit right code))
    (instruction : Instruction) (machine : Machine) (hosts : related left right)
    (takes : instruction.opcode = .input → TakesAlike related left right) :
    (execute instruction machine left).Alike related (execute instruction machine right) := by
  by_cases reads : instruction.opcode = .input
  · rw [execute_input machine left reads, execute_input machine right reads]
    exact receive_alike instruction machine hosts (takes reads)
  · by_cases prints : instruction.opcode = .output
    · rw [execute_output machine left prints, execute_output machine right prints]
      exact ⟨rfl, rfl, emits _ hosts⟩
    · obtain ⟨result, after, _, uniform⟩ := hostFree_execute instruction machine reads prints
      have onLeft : execute instruction machine left = ⟨result, after, left⟩ := uniform left
      have onRight : execute instruction machine right = ⟨result, after, right⟩ := uniform right
      rw [onLeft, onRight]
      exact ⟨rfl, rfl, hosts⟩

namespace Engine

/-- An instruction that no breakpoint intercepts is announced and executed alike. -/
theorem handle_bypass_alike (told : ToldAlike related) (engine : Engine)
    (instruction : Instruction) (hosts : related left right)
    (takes : ∀ {left : H} {right : K}, related left right → TakesAlike related left right) :
    (engine.handle left true instruction).Alike related
      (engine.handle right true instruction) := by
  have announced :=
    announce_alike told engine.config.tracing instruction engine.machine.registers hosts
  rw [handle_bypass, handle_bypass]
  apply conclude_alike
  exact execute_alike told.emit instruction engine.machine announced fun _ => takes announced

/-- A cycle that ignores breakpoints does the same on related hosts. -/
theorem cycle_bypass_alike (told : ToldAlike related) (engine : Engine)
    (hosts : related left right)
    (takes : ∀ {left : H} {right : K}, related left right → TakesAlike related left right) :
    (engine.cycle left true).Alike related (engine.cycle right true) := by
  cases engine.cycleStart with
  | halted _ cycles | stops _ _ _ cycles =>
      rw [cycles, cycles]
      exact ⟨rfl, rfl, hosts⟩
  | @fetches instruction _ _ cycles =>
      rw [cycles, cycles]
      exact handle_bypass_alike told _ instruction hosts takes

end Engine

end

/-! ## Hosts that are told everything

An engine that traces and one that does not tell their hosts different things. If the relation
survives that too, it survives whole runs.
-/

/-- The same engine, tracing or not. -/
def Engine.withTracing (engine : Engine) (tracing : Bool) : Engine :=
  { engine with config := { engine.config with tracing } }

/-- Two runs that differ in their hosts alone. -/
structure Run.Alike {H K : Type} (related : H → K → Prop) (left : Run H) (right : Run K) :
    Prop where
  outcome? : left.outcome? = right.outcome?
  steps : left.steps = right.steps
  engine : left.engine = right.engine
  host : related left.host right.host

/-- The relation survives all that happens to the hosts of two engines, each of which may trace or
not. -/
structure ServesAlike {H K : Type} [Host H] [Host K] (related : H → K → Prop)
    (leftTraces rightTraces : Bool) : Prop where
  emit : ∀ {left : H} {right : K} (code : Word), related left right →
    related (Host.emit left code) (Host.emit right code)
  takes : ∀ {left : H} {right : K}, related left right → TakesAlike related left right
  announced : ∀ {left : H} {right : K} (instruction : Instruction) (registers : RegisterFile)
    (breaking : Bool), related left right →
    related (Engine.announce leftTraces left instruction registers breaking)
      (Engine.announce rightTraces right instruction registers breaking)

namespace Engine

section
variable {H K : Type} {related : H → K → Prop} {left : H} {right : K} {tracing : Bool}

theorem conclude_withTracing (engine : Engine) (tracing : Bool) (instruction : Instruction)
    (execution : Execution H) :
    (engine.withTracing tracing).conclude instruction execution =
      (engine.conclude instruction execution).mapEngine (·.withTracing tracing) := by
  unfold conclude
  split <;> rfl

theorem mapEngine_alike {progress : Progress H} {other : Progress K} (change : Engine → Engine)
    (alike : progress.Alike related other) :
    (progress.mapEngine change).Alike related (other.mapEngine change) :=
  ⟨alike.outcome, congrArg change alike.engine, alike.host⟩

variable [Host H] [Host K]

theorem handle_serves {engine : Engine}
    (serves : ServesAlike related engine.config.tracing tracing) (bypass : Bool)
    (instruction : Instruction) (hosts : related left right) :
    ((engine.handle left bypass instruction).mapEngine (·.withTracing tracing)).Alike related
      ((engine.withTracing tracing).handle right bypass instruction) := by
  have kept : (engine.withTracing tracing).breakpoints = engine.breakpoints := rfl
  unfold handle
  simp only [kept]
  have announced := serves.announced instruction engine.machine.registers
    (!bypass && engine.breakpoints.contains instruction.address) hosts
  split
  · exact ⟨rfl, rfl, announced⟩
  · rw [perform_eq_conclude, perform_eq_conclude, conclude_withTracing]
    apply mapEngine_alike
    apply conclude_alike
    exact execute_alike serves.emit instruction engine.machine announced fun _ =>
      serves.takes announced

theorem cycle_serves {engine : Engine}
    (serves : ServesAlike related engine.config.tracing tracing) (bypass : Bool)
    (hosts : related left right) :
    ((engine.cycle left bypass).mapEngine (·.withTracing tracing)).Alike related
      ((engine.withTracing tracing).cycle right bypass) := by
  have same : (engine.withTracing tracing).machine = engine.machine := rfl
  unfold cycle
  rw [same]
  cases engine.machine.pc with
  | none => exact ⟨rfl, rfl, hosts⟩
  | some pc =>
      simp only
      cases decode engine.machine.memory pc with
      | endOfProgram => exact ⟨rfl, rfl, hosts⟩
      | fault fault => exact ⟨rfl, rfl, hosts⟩
      | instruction instruction =>
          exact handle_serves (show ServesAlike related
            { engine with suspension := none }.config.tracing tracing from serves) bypass
            instruction hosts

theorem resume_serves {engine : Engine}
    (serves : ServesAlike related engine.config.tracing tracing) (steps fuel : Nat)
    (hosts : related left right) :
    ((engine.resume left steps fuel).mapEngine (·.withTracing tracing)).Alike related
      ((engine.withTracing tracing).resume right steps fuel) := by
  induction fuel generalizing engine left right steps with
  | zero => exact ⟨rfl, rfl, rfl, hosts⟩
  | succ fuel inductionHypothesis =>
      have cycled := cycle_serves serves false hosts
      have settings := (settings_cycle engine left false).1
      have limits : (engine.withTracing tracing).limitReached steps = engine.limitReached steps :=
        rfl
      simp only [resume, limits]
      split
      · exact ⟨rfl, rfl, rfl, hosts⟩
      · rcases leftCycle : engine.cycle left false with ⟨outcome, next, nextHost⟩
        rw [leftCycle] at cycled settings
        obtain ⟨otherHost, nextRelated, rightCycle⟩ := Progress.exists_eq_of_alike cycled
        rw [rightCycle]
        cases outcome with
        | completed =>
            simp only at settings
            rw [← settings] at serves
            exact inductionHypothesis serves (steps + 1) nextRelated
        | suspended _ | halted _ _ => exact ⟨rfl, rfl, rfl, nextRelated⟩

/-! ### One engine on both hosts -/

theorem withTracing_self (engine : Engine) : engine.withTracing engine.config.tracing = engine :=
  rfl

theorem cycle_alike {engine : Engine}
    (serves : ServesAlike related engine.config.tracing engine.config.tracing) (bypass : Bool)
    (hosts : related left right) :
    (engine.cycle left bypass).Alike related (engine.cycle right bypass) := by
  have cycled := cycle_serves serves bypass hosts
  rw [withTracing_self] at cycled
  refine ⟨cycled.outcome, ?_, cycled.host⟩
  have config := (settings_cycle engine left bypass).1
  rw [← cycled.engine]
  simp only [Progress.mapEngine, ← config, withTracing_self]

theorem resume_alike {engine : Engine}
    (serves : ServesAlike related engine.config.tracing engine.config.tracing) (steps fuel : Nat)
    (hosts : related left right) :
    (engine.resume left steps fuel).Alike related (engine.resume right steps fuel) := by
  have resumed := resume_serves serves steps fuel hosts
  rw [withTracing_self] at resumed
  refine ⟨resumed.outcome?, resumed.steps, ?_, resumed.host⟩
  have config := (keptByCycles_settings.resume engine left steps fuel).1
  rw [← resumed.engine]
  simp only [Run.mapEngine, ← config, withTracing_self]

end

end Engine

/-! ## Buffered hosts -/

namespace BufferedHost

theorem recordTrace_observe (host : BufferedHost) (event : TraceEvent) :
    (Host.observe host event).recordTrace = host.recordTrace := by
  simp only [Host.observe]
  split <;> rfl

theorem input_observe (host : BufferedHost) (event : TraceEvent) :
    (Host.observe host event).input = host.input := by
  simp only [Host.observe]
  split <;> rfl

theorem output_observe (host : BufferedHost) (event : TraceEvent) :
    (Host.observe host event).output = host.output := by
  simp only [Host.observe]
  split <;> rfl

theorem take?_of_pending_nil {host : BufferedHost} (empty : host.input.pending = []) :
    Host.take? host = none := by
  simp only [Host.take?, InputQueue.take?, empty, Option.map_none]

theorem take?_of_pending_cons {host : BufferedHost} {code : Word} {rest : List Word}
    (waiting : host.input.pending = code :: rest) :
    Host.take? host = some (code, { host with input := ⟨rest⟩ }) := by
  simp only [Host.take?, InputQueue.take?, waiting, Option.map_some]

/-- Hosts with the same input hand out alike. -/
theorem takesAlike_of_input {related : BufferedHost → BufferedHost → Prop}
    {left right : BufferedHost} (same : right.input = left.input)
    (restRelated : ∀ input, related { left with input } { right with input }) :
    TakesAlike related left right := by
  cases waiting : left.input.pending with
  | nil =>
      refine .exhausted (take?_of_pending_nil waiting) (take?_of_pending_nil ?_)
      rw [same, waiting]
  | cons code rest =>
      refine .supplied (take?_of_pending_cons waiting) (take?_of_pending_cons ?_)
        (restRelated ⟨rest⟩)
      rw [same, waiting]

end BufferedHost

namespace Engine

open BufferedHost

theorem input_announce (tracing : Bool) (host : BufferedHost) (instruction : Instruction)
    (registers : RegisterFile) (breaking : Bool) :
    (announce tracing host instruction registers breaking).input = host.input := by
  unfold announce
  split
  · exact input_observe host _
  · rfl

theorem recordTrace_announce (tracing : Bool) (host : BufferedHost) (instruction : Instruction)
    (registers : RegisterFile) (breaking : Bool) :
    (announce tracing host instruction registers breaking).recordTrace = host.recordTrace := by
  unfold announce
  split
  · exact recordTrace_observe host _
  · rfl

/-- An event that is not told or not recorded leaves no trace. -/
theorem announce_of_silent {tracing : Bool} {host : BufferedHost}
    (silent : tracing = false ∨ host.recordTrace = false) (instruction : Instruction)
    (registers : RegisterFile) (breaking : Bool) :
    announce tracing host instruction registers breaking = host := by
  unfold announce
  rcases silent with untold | unrecorded
  · rw [untold, if_neg Bool.false_ne_true]
  · split
    · simp only [Host.observe, unrecorded, Bool.false_eq_true, if_false]
    · rfl

theorem output_announce (tracing : Bool) (host : BufferedHost) (instruction : Instruction)
    (registers : RegisterFile) (breaking : Bool) :
    (announce tracing host instruction registers breaking).output = host.output := by
  unfold announce
  split
  · exact output_observe host _
  · rfl

end Engine

end RegisterMachine
