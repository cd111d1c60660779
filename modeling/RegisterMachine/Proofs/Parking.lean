import RegisterMachine.Proofs.Consistency
import RegisterMachine.Proofs.Faults
import RegisterMachine.Proofs.FirstHit
import RegisterMachine.Proofs.HostSimulation

/-!
Contract: an engine that has paused stays where it is.

A pause leaves the program counter at its instruction, so the next cycle fetches
that instruction again. What kept it from being executed has not changed: the
breakpoint still stands there, or there is still no input. So a further attempt
pauses in the same way, and all that happens is that the host is told of the
instruction once more. The exception is an `in` that a step has reached which
ignores breakpoints: the next attempt obeys the one that stands there.

Owns: `Engine.Parked`, and attempts of engines that have paused or halted.
Does not own: pauses that end because input arrives (`Proofs.InputDelivery`).
-/

namespace RegisterMachine

def Suspension.isBreakpoint : Suspension → Bool
  | .breakpoint _ => true
  | .needsInput => false

/-- To be told of an instruction brings no input. -/
def Host.Quiet (H : Type) [Host H] : Prop :=
  ∀ (host : H) (event : TraceEvent), Host.take? host = none →
    Host.take? (Host.observe host event) = none

theorem Host.quiet_buffered : Host.Quiet BufferedHost := by
  intro host event empty
  have same := BufferedHost.input_observe host event
  cases waiting : host.input.pending with
  | nil => exact BufferedHost.take?_of_pending_nil (by rw [same, waiting])
  | cons code rest =>
      rw [BufferedHost.take?_of_pending_cons waiting] at empty
      cases empty

/-- The host has been told once more of what it was told last, if it records that at all, and
nothing else has happened to it. -/
structure BufferedHost.Retold (recorded : Bool) (host after : BufferedHost) : Prop where
  input : after.input = host.input
  output : after.output = host.output
  recordTrace : after.recordTrace = host.recordTrace
  trace : recorded = true →
    ∃ event, host.trace.back? = some event ∧ after.trace = host.trace.push event
  silent : recorded = false → after.trace = host.trace

namespace Engine

section
variable {H : Type} [Host H]

/-- The host after the engine has told it of an event, if it traces. -/
def tell (engine : Engine) (host : H) (event : TraceEvent) : H :=
  announce engine.config.tracing host event.instruction event.registers event.breaking

/-- What keeps an instruction from being executed. -/
inductive Detains (engine : Engine) (host : H) (instruction : Instruction) : Suspension → Prop where
  | breakpoint (member : instruction.address ∈ engine.breakpoints) :
      Detains engine host instruction (.breakpoint instruction.address)
  | exhausted (reads : instruction.opcode = .input) (empty : Host.take? host = none) :
      Detains engine host instruction .needsInput

/-- The engine has paused at an instruction, and this event is the last that its host was told. -/
structure Parked (engine : Engine) (host : H) (cause : Suspension) (event : TraceEvent) :
    Prop where
  counter : engine.machine.pc = some event.instruction.address
  fetched : decode engine.machine.memory event.instruction.address =
    .instruction event.instruction
  registers : event.registers = engine.machine.registers
  breaking : event.breaking = cause.isBreakpoint
  suspension : engine.suspension = some cause
  detained : engine.Detains host event.instruction cause
  told : ∃ earlier, host = engine.tell earlier event

variable {engine next : Engine} {host nextHost : H} {cause : Suspension} {event : TraceEvent}

/-! ## Cycles -/

/-- A cycle that pauses leaves the engine parked, however it has got there. -/
theorem exists_parked_of_cycle {bypass : Bool}
    (paused : engine.cycle host bypass = ⟨.suspended cause, next, nextHost⟩) :
    ∃ event, next.Parked nextHost cause event := by
  cases engine.cycleStart with
  | halted _ cycles | stops _ _ _ cycles =>
      rw [cycles] at paused
      cases paused
  | @fetches instruction counter fetched cycles =>
      rw [cycles, handle] at paused
      simp only at paused
      split at paused
      · next breaking =>
          cases paused
          have member : instruction.address ∈ engine.breakpoints :=
            of_decide_eq_true (Bool.and_eq_true_iff.mp breaking).2
          exact ⟨⟨instruction, engine.machine.registers, true⟩, counter, fetched, rfl, rfl, rfl,
            .breakpoint member, host, by rw [tell, breaking]⟩
      · next passing =>
          rw [Bool.not_eq_true] at passing
          rw [perform_eq_conclude] at paused
          have outcome := congrArg Progress.outcome paused
          cases cause with
          | breakpoint address => exact absurd outcome (conclude_not_breakpoint _ _ _ address)
          | needsInput =>
              have waits := result_of_conclude_needsInput outcome
              obtain ⟨reads, empty⟩ := exhausted_of_needsInput waits
              rw [execute_of_needsInput waits] at paused
              cases paused
              exact ⟨⟨instruction, engine.machine.registers, false⟩, counter, fetched, rfl, rfl,
                rfl, .exhausted reads empty, host, by rw [tell, passing]⟩

theorem tell_exhausted (quiet : Host.Quiet H) (empty : Host.take? host = none) (engine : Engine)
    (event : TraceEvent) : Host.take? (engine.tell host event) = none := by
  unfold tell announce
  split
  · exact quiet host event empty
  · exact empty

/-- The pause is at a breakpoint, or no breakpoint stands where it is. -/
def Repeats (engine : Engine) (cause : Suspension) : Prop :=
  cause.isBreakpoint = true ∨ ∀ pc, engine.machine.pc = some pc → pc ∉ engine.breakpoints

/-- A parked engine pauses again and only tells its host of the same event once more. -/
theorem Parked.cycle (quiet : cause = .needsInput → Host.Quiet H)
    (parked : engine.Parked host cause event) (repeats : engine.Repeats cause) :
    engine.cycle host false = ⟨.suspended cause, engine, engine.tell host event⟩ := by
  obtain ⟨counter, fetched, registers, breaking, suspension, detained, _⟩ := parked
  have same : { engine with suspension := some cause } = engine := by rw [← suspension]
  cases detained with
  | breakpoint member =>
      rw [cycle_of_intercepts host ⟨counter, fetched, member⟩, intercept, suspend, same, tell,
        registers, breaking]
      rfl
  | exhausted reads empty =>
      have free : event.instruction.address ∉ { engine with suspension := none }.breakpoints := by
        rcases repeats with isBreakpoint | free
        · cases isBreakpoint
        · exact free _ counter
      have passing : event.breaking = false := breaking
      have empty := tell_exhausted (quiet rfl) empty engine event
      rw [tell, registers, passing] at empty ⊢
      simp only [Engine.cycle, counter, fetched]
      rw [handle_of_passes _ (.inr free), execute_of_exhausted engine.machine reads empty,
        conclude]
      exact congrArg (Progress.mk _ · _) same

/-! ## Attempts -/

/-- A step or a run has just paused for this cause. -/
inductive HasPaused (engine : Engine) (host : H) (cause : Suspension) : Prop where
  | stepped {before : Engine} {beforeHost : H} {count : Nat}
      (paused : before.step beforeHost count = ⟨.suspended cause, engine, host⟩)
  | ran {before : Engine} {beforeHost : H} {steps fuel : Nat}
      (paused : before.run beforeHost fuel = ⟨some (.suspended cause), steps, engine, host⟩)

/-- Whatever has paused has paused in its last cycle. -/
theorem HasPaused.exists_cycle (paused : engine.HasPaused host cause) :
    ∃ (before : Engine) (beforeHost : H) (bypass : Bool),
      before.cycle beforeHost bypass = ⟨.suspended cause, engine, host⟩ := by
  cases paused with
  | @stepped before beforeHost count paused =>
      unfold step at paused
      split at paused
      · exact ⟨before, beforeHost, true, paused⟩
      · rcases completes_or_stops before beforeHost count with
          ⟨last, lastHost, completes⟩ | ⟨_, last, lastHost, _, _, stops, _⟩
        · cases completes.symm.trans paused
        · exact ⟨last, lastHost, false, stops.trans paused⟩
  | ran paused =>
      cases (run_eq_iff.mp paused).2 with
      | @stopped _ next _ nextHost _ _ _ stops _ => exact ⟨next, nextHost, false, stops⟩

theorem HasPaused.exists_parked (paused : engine.HasPaused host cause) :
    ∃ event, engine.Parked host cause event := by
  obtain ⟨_, _, _, cycled⟩ := paused.exists_cycle
  exact exists_parked_of_cycle cycled

/-- Every further attempt pauses for the same cause and changes nothing but the host. -/
structure PausesAgain (engine : Engine) (host : H) (cause : Suspension) (after : H) : Prop where
  step : ∀ count, 1 ≤ count → engine.step host count = ⟨.suspended cause, engine, after⟩
  run : ∀ fuel, 1 ≤ fuel → engine.config.stepLimit ≠ some 0 →
    engine.run host fuel = ⟨some (.suspended cause), 0, engine, after⟩

theorem Parked.pausesAgain (quiet : cause = .needsInput → Host.Quiet H)
    (parked : engine.Parked host cause event) (repeats : engine.Repeats cause) :
    engine.PausesAgain host cause (engine.tell host event) := by
  have pauses := parked.cycle quiet repeats
  refine ⟨?_, ?_⟩
  · intro count positive
    rw [step_of_pos positive]
    exact (completes_zero engine host).cycles_of_stopped pauses nofun positive
  · intro fuel enough unbounded
    have free : engine.limitReached 0 = false := by
      refine limitReached_eq_false_iff.mpr fun limit limited => Nat.pos_of_ne_zero ?_
      rintro rfl
      exact unbounded limited
    exact run_eq_iff.mpr ⟨enough, .stopped (completes_zero engine host) free pauses nofun⟩

end

/-! ## Buffered hosts -/

open BufferedHost

variable {engine : Engine} {host : BufferedHost} {cause : Suspension} {event : TraceEvent}

theorem trace_tell (recorded : (engine.config.tracing && host.recordTrace) = true) :
    (engine.tell host event).trace = host.trace.push event := by
  obtain ⟨traces, records⟩ := Bool.and_eq_true_iff.mp recorded
  simp only [tell, announce, traces, if_true, Host.observe, records]

/-- What a buffered host is told once more is the last event of its trace. -/
theorem retold_of_parked (parked : engine.Parked host cause event) :
    host.Retold (engine.config.tracing && host.recordTrace) (engine.tell host event) := by
  obtain ⟨earlier, told⟩ := parked.told
  have recordTrace : host.recordTrace = earlier.recordTrace := by
    rw [told]
    exact recordTrace_announce _ _ _ _ _
  refine ⟨input_announce _ _ _ _ _, output_announce _ _ _ _ _, recordTrace_announce _ _ _ _ _, ?_,
    ?_⟩
  · intro recorded
    refine ⟨event, ?_, trace_tell recorded⟩
    rw [recordTrace] at recorded
    rw [told, trace_tell recorded, Array.back?_push]
  · intro unrecorded
    rw [tell, announce_of_silent (Bool.and_eq_false_iff.mp unrecorded)]

theorem haltReason?_of_halted (halted : engine.machine.pc = none) :
    engine.haltReason? = some (engine.reason.getD .restored) := by
  rw [haltReason?, Machine.isHalted, halted]
  rfl

/-- An engine that has just paused is left as it is by every further attempt, which pauses for the
same cause and only tells the host once more of what it was told last; the exception is a pause for
input where a breakpoint has been ignored. A halted engine and its host are left as they are by
every step, which tells the halt once more. -/
theorem stays_parked :
    (∀ {H : Type} [Host H] (engine : Engine) (host : H) (cause : Suspension),
      (cause = .needsInput → Host.Quiet H) → engine.HasPaused host cause → engine.Repeats cause →
      ∃ event, (∃ earlier, host = engine.tell earlier event) ∧
        engine.PausesAgain host cause (engine.tell host event)) ∧
    (∀ (engine : Engine) (host : BufferedHost) (cause : Suspension),
      engine.HasPaused host cause → engine.Repeats cause →
      ∃ after, host.Retold (engine.config.tracing && host.recordTrace) after ∧
        engine.PausesAgain host cause after) ∧
    ∀ {H : Type} [Host H] (engine : Engine) (host : H), engine.machine.pc = none →
      ∃ reason, engine.haltReason? = some reason ∧
        ∀ count, engine.step host count = ⟨.halted engine.result reason, engine, host⟩ := by
  refine ⟨?_, ?_, ?_⟩
  · intro H _ engine host cause quiet paused repeats
    obtain ⟨event, parked⟩ := paused.exists_parked
    exact ⟨event, parked.told, parked.pausesAgain quiet repeats⟩
  · intro engine host cause paused repeats
    obtain ⟨event, parked⟩ := paused.exists_parked
    exact ⟨_, retold_of_parked parked, parked.pausesAgain (fun _ => Host.quiet_buffered) repeats⟩
  · intro H _ engine host halted
    exact ⟨_, haltReason?_of_halted halted, step_of_halted halted host⟩

/-- Reads a code into its own operand, and begins again. -/
def selfDirected : Engine := fresh (.ofList [20, 1, 6, 0]) .standard

/-- The only code makes register 0 the destination of the next one. -/
def suppliedOnce : BufferedHost := { start true with input := ⟨[32768]⟩ }

/-- The second instruction has a breakpoint. -/
def guarded : Engine := (selfDirected.addBreakpoint 2).2

/-- One run pauses at a breakpoint, one at the instruction that it has rewritten, and one engine is
halted from outside. -/
theorem stays_parked_of_selfDirected :
    ((guarded.run suppliedOnce 5).outcome? = some (.suspended (.breakpoint 2)) ∧
      ∃ event, (∃ earlier, (guarded.run suppliedOnce 5).host =
          (guarded.run suppliedOnce 5).engine.tell earlier event) ∧
        (guarded.run suppliedOnce 5).engine.PausesAgain (guarded.run suppliedOnce 5).host
          (.breakpoint 2)
          ((guarded.run suppliedOnce 5).engine.tell (guarded.run suppliedOnce 5).host event)) ∧
    ((selfDirected.run suppliedOnce 5).engine.machine.memory = .ofList [20, 32768, 6, 0] ∧
      ∃ after, (selfDirected.run suppliedOnce 5).host.Retold true after ∧
        (selfDirected.run suppliedOnce 5).engine.PausesAgain
          (selfDirected.run suppliedOnce 5).host .needsInput after) ∧
    ∃ reason, selfDirected.requestHalt.2.haltReason? = some reason ∧
      ∀ count, selfDirected.requestHalt.2.step suppliedOnce count =
        ⟨.halted 1 reason, selfDirected.requestHalt.2, suppliedOnce⟩ := by
  have intercepted : guarded.run suppliedOnce 5 =
      ⟨some (.suspended (.breakpoint 2)), 1, (guarded.run suppliedOnce 5).engine,
        (guarded.run suppliedOnce 5).host⟩ := rfl
  have exhausted : selfDirected.run suppliedOnce 5 =
      ⟨some (.suspended .needsInput), 2, (selfDirected.run suppliedOnce 5).engine,
        (selfDirected.run suppliedOnce 5).host⟩ := rfl
  have free : (selfDirected.run suppliedOnce 5).engine.Repeats .needsInput :=
    .inr fun _ _ => List.not_mem_nil
  refine ⟨⟨rfl, ?_⟩, ⟨by decide, ?_⟩, ?_⟩
  · exact stays_parked.1 _ _ _ (fun _ => Host.quiet_buffered) (.ran intercepted) (.inl rfl)
  · exact stays_parked.2.1 _ _ _ (.ran exhausted) free
  · exact stays_parked.2.2 selfDirected.requestHalt.2 suppliedOnce rfl

end Engine

end RegisterMachine
