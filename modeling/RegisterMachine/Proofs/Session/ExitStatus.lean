import RegisterMachine.Proofs.Consistency
import RegisterMachine.Proofs.Session.Batch
import RegisterMachine.Proofs.Stepping

/-!
Contract: the exit status of a session tells whether its machine is halted.

The exit code is computed from the outcome of the run and not from the machine.
A cycle leaves the engine where its outcome tells, and so does a run that has
attempted one. A run that may not take any step attempts no cycle: it is
completed wherever the machine stands, also if it has been halted before.

Owns: where the engine of a session stands when the session is reported.
Does not own: which results a machine can have (`Proofs.ResultCodes`).
-/

namespace RegisterMachine

/-- The outcome is a halt with this code. -/
def Outcome.HaltsWith (outcome : Outcome) (code : Word) : Prop :=
  ∃ reason, outcome = .halted code reason

/-- A halt is told exactly if the machine is halted, and then with its result. -/
theorem Progress.Settled.haltsWith_iff {H : Type} {progress : Progress H}
    (settled : progress.Settled) (code : Word) :
    progress.outcome.HaltsWith code ↔
      progress.engine.machine.pc = none ∧ progress.engine.result = code := by
  have state := settled.runState
  have told := settled.haltReason?
  rw [Engine.runState, Machine.isHalted] at state
  rw [Engine.haltReason?, Machine.isHalted] at told
  constructor
  · rintro ⟨reason, isHalt⟩
    rw [isHalt] at state told
    cases counter : progress.engine.machine.pc with
    | none =>
        rw [counter] at state
        cases state
        exact ⟨rfl, rfl⟩
    | some pc =>
        rw [counter] at told
        cases told
  · rintro ⟨counter, rfl⟩
    rw [counter] at state
    cases outcome : progress.outcome with
    | halted found reason =>
        rw [outcome] at state
        cases state
        exact ⟨reason, rfl⟩
    | completed | suspended _ =>
        rw [outcome] at state
        cases state

namespace Engine

variable {H : Type} [Host H] {engine last : Engine} {host lastHost : H} {outcome : Outcome}

/-- A run leaves the engine where its outcome tells, unless it may not take any step. -/
theorem settled_of_run {steps fuel : Nat} (consistent : engine.Consistent)
    (ended : engine.run host fuel = ⟨some outcome, steps, last, lastHost⟩) :
    (engine.limitReached 0 = true ∧ outcome = .completed ∧ last = engine) ∨
      (⟨outcome, last, lastHost⟩ : Progress H).Settled := by
  cases (run_eq_iff.mp ended).2 with
  | limited completes _ reached =>
      cases steps with
      | zero =>
          cases completes
          exact .inl ⟨reached, rfl, rfl⟩
      | succ steps =>
          have settled := settled_cycles consistent host steps
          rw [completes] at settled
          exact .inr settled
  | stopped completes _ stops incomplete =>
      have settled := settled_cycles consistent host steps
      rw [completes.cycles_of_stopped stops incomplete (Nat.lt_succ_self steps)] at settled
      exact .inr settled

end Engine

namespace Session

open Engine

section
variable {H : Type} [Host H] {engine : Engine} {host : H} {outcome : Outcome} {plan : Plan}
  {fuel : Nat}

theorem settled_of_drive {bypass : Bool} (consistent : engine.Consistent)
    (ended : (drive engine host bypass fuel).outcome? = some outcome) :
    (bypass = false ∧ engine.limitReached 0 = true) ∨
      (⟨outcome, (drive engine host bypass fuel).engine, (drive engine host bypass fuel).host⟩ :
        Progress H).Settled := by
  have first := settled_cycle consistent host true
  have driven := drives engine host bypass fuel
  generalize drive engine host bypass fuel = run at driven ended ⊢
  cases driven with
  | obeys =>
      rcases ran : engine.run host fuel with ⟨outcome?, steps, last, lastHost⟩
      rw [ran] at ended
      cases ended
      exact (settled_of_run consistent ran).imp (fun limited => ⟨rfl, limited.1⟩) id
  | @goesOn next nextHost cycled =>
      rw [cycled] at first
      right
      rcases ran : next.run nextHost fuel with ⟨outcome?, steps, last, lastHost⟩
      simp only [ran] at ended ⊢
      cases ended
      -- If the limit allows no more steps, the first one has settled the engine.
      rcases settled_of_run first.consistent ran with ⟨_, rfl, rfl⟩ | settled
      · exact ⟨first.consistent, first.runState, first.haltReason?⟩
      · exact settled
  | ended cycled _ =>
      rw [cycled] at first
      cases ended
      exact .inr first

/-- No step is allowed only if the plan says so. -/
theorem maxSteps_of_limitReached (config : engine.config = plan.engineConfig)
    (obeys : plan.bypasses = false) (reached : engine.limitReached 0 = true) :
    plan.maxSteps = some 0 := by
  have limit : engine.config.stepLimit = plan.maxSteps := by
    rw [config, Plan.engineConfig, Plan.stepLimit, obeys]
    rfl
  rw [limitReached, limit] at reached
  cases most : plan.maxSteps with
  | none =>
      rw [most] at reached
      cases reached
  | some allowed =>
      rw [most] at reached
      exact congrArg some (Nat.le_zero.mp (of_decide_eq_true reached))

/-- A session that may not take any step leaves its machine alone, halted or not. -/
theorem drive_of_no_steps (noSteps : plan.maxSteps = some 0)
    (config : engine.config = plan.engineConfig)
    (ended : (drive engine host plan.bypasses fuel).outcome? = some outcome) :
    outcome = .completed ∧ (drive engine host plan.bypasses fuel).engine = engine := by
  have obeys : plan.bypasses = false := by
    rw [Plan.bypasses, noSteps]
    exact Bool.and_false _
  have limit : engine.config.stepLimit = some 0 := by
    rw [config, Plan.engineConfig, Plan.stepLimit, obeys, noSteps]
    rfl
  rw [obeys] at ended ⊢
  cases fuel with
  | zero => cases ended
  | succ fuel =>
      have reached := limitReached_of_limit limit 0
      have ran : drive engine host false (fuel + 1) = ⟨some .completed, 0, engine, host⟩ :=
        if_pos reached
      rw [ran] at ended ⊢
      cases ended
      exact ⟨rfl, rfl⟩

end

/-! ## Reports -/

/-- What a report tells of the engine that its session began with and of the one that it left. -/
structure TellsHalt (plan : Plan) (report : Report) (first last : Engine) : Prop where
  pc : report.pc = last.machine.pc
  result : report.result = last.result
  stop : ∀ code, report.stop.HaltsWith code ↔
    plan.maxSteps ≠ some 0 ∧ last.machine.pc = none ∧ last.result = code
  exitCode : report.exitCode =
    if plan.maxSteps ≠ some 0 ∧ last.machine.pc = none then last.result.toNat else 0
  unmoved : plan.maxSteps = some 0 → report.stop = .completed ∧ last = first

theorem exitCode_of_haltsWith {report : Report} {code : Word}
    (halts : report.stop.HaltsWith code) : report.exitCode = code.toNat := by
  obtain ⟨reason, isHalt⟩ := halts
  rw [Report.exitCode, isHalt]

theorem exitCode_of_not_haltsWith {report : Report}
    (goesOn : ∀ code, ¬ report.stop.HaltsWith code) : report.exitCode = 0 := by
  rw [Report.exitCode]
  cases outcome : report.stop with
  | halted code reason => exact absurd ⟨reason, outcome⟩ (goesOn code)
  | completed | suspended _ => rfl

variable {plan : Plan} {desk after : Desk} {engine : Engine}

theorem tellsHalt_of_drive {console : Console} {stop : Outcome} {fuel : Nat}
    (consistent : engine.Consistent) (config : engine.config = plan.engineConfig)
    (ended : (drive engine console plan.bypasses fuel).outcome? = some stop) :
    TellsHalt plan (reportOf stop (drive engine console plan.bypasses fuel)) engine
      (drive engine console plan.bypasses fuel).engine := by
  have halts (code : Word) : stop.HaltsWith code ↔ plan.maxSteps ≠ some 0 ∧
      (drive engine console plan.bypasses fuel).engine.machine.pc = none ∧
      (drive engine console plan.bypasses fuel).engine.result = code := by
    by_cases noSteps : plan.maxSteps = some 0
    · rw [(drive_of_no_steps noSteps config ended).1]
      constructor
      · rintro ⟨reason, isHalt⟩
        cases isHalt
      · rintro ⟨steps, _⟩
        exact absurd noSteps steps
    · rcases settled_of_drive consistent ended with ⟨obeys, reached⟩ | settled
      · exact absurd (maxSteps_of_limitReached config obeys reached) noSteps
      · rw [settled.haltsWith_iff]
        exact ⟨fun halted => ⟨noSteps, halted⟩, And.right⟩
  refine ⟨rfl, rfl, halts, ?_, fun noSteps => drive_of_no_steps noSteps config ended⟩
  split
  · next halted => exact exitCode_of_haltsWith ((halts _).mpr ⟨halted.1, halted.2, rfl⟩)
  · next goesOn =>
      apply exitCode_of_not_haltsWith
      intro code isHalt
      obtain ⟨steps, counter, _⟩ := (halts code).mp isHalt
      exact goesOn ⟨steps, counter⟩

/-! ## Sessions -/

/-- A session begins with the engine of the program or of the snapshot, whatever its input is. -/
theorem exists_of_succeeds_prepare {input : InputQueue}
    (prepared : Succeeds (prepare plan) desk (engine, input) after) :
    ∃ supplies : Supplies, Option.Rel (HoldsMachine desk.files) plan.state supplies.machine ∧
      engine = supplies.engine plan := by
  obtain ⟨loaded, ready, loads, afterLoading⟩ := succeeds_bind_iff.mp prepared
  obtain ⟨_, image, machine, _, isMachine, rfl, _⟩ := of_succeeds_load loads
  obtain ⟨_, _, _, afterOpening⟩ := succeeds_bind_iff.mp afterLoading
  obtain ⟨_, _, _, afterQueueing⟩ := succeeds_bind_iff.mp afterOpening
  obtain ⟨_, _, _, last⟩ := succeeds_bind_iff.mp afterQueueing
  cases (succeeds_pure_iff.mp last).1
  exact ⟨⟨image, machine, none⟩, isMachine, rfl⟩

theorem consistent_engine (supplies : Supplies) (plan : Plan) :
    (supplies.engine plan).Consistent := by
  have loaded : (supplies.loaded plan.engineConfig).Consistent := by
    unfold Supplies.loaded
    cases supplies.machine with
    | none => exact consistent_fresh _ _
    | some machine => exact consistent_restore _ machine
  rw [supplies.engine_eq]
  exact loaded.congr rfl rfl rfl rfl

/-- A report is made of the run of the prepared engine. -/
theorem exists_drive_of_run {room : Option Nat} {fuel : Nat} {report : Report}
    (succeeded : desk.perform (Session.run plan room fuel) = (.ok report, after)) :
    ∃ (supplies : Supplies) (input : InputQueue) (ready : Desk) (stop : Outcome),
      Option.Rel (HoldsMachine desk.files) plan.state supplies.machine ∧
      Succeeds (prepare plan) desk (supplies.engine plan, input) ready ∧
      (drive (supplies.engine plan) (Console.start input plan.trace.isSome room) plan.bypasses
        fuel).outcome? = some stop ∧
      report = reportOf stop (drive (supplies.engine plan)
        (Console.start input plan.trace.isSome room) plan.bypasses fuel) := by
  rw [perform_run] at succeeded
  rcases prepared : desk.perform (prepare plan).run with ⟨error | ⟨first, input⟩, ready⟩
  · rw [prepared] at succeeded
    cases succeeded
  · rw [prepared] at succeeded
    obtain ⟨supplies, isMachine, rfl⟩ := exists_of_succeeds_prepare prepared
    obtain ⟨_, _, _, _, _, _, stop, stopped, isReport⟩ := exists_of_conclude succeeded
    exact ⟨supplies, input, ready, stop, isMachine, prepared, stopped, isReport⟩

/-- A session that succeeds reports a halt exactly if its machine is halted in the end, and exits
with the result of the machine then and with zero otherwise. The exception is a session that may
not take any step: it is completed and exits with zero even if its machine has been halted. -/
theorem exit_status_tells_halt {room : Option Nat} {fuel : Nat} {report : Report}
    (succeeded : desk.perform (Session.run plan room fuel) = (.ok report, after)) :
    ∃ first input ready, Succeeds (prepare plan) desk (first, input) ready ∧
      TellsHalt plan report first
        (drive first (Console.start input plan.trace.isSome room) plan.bypasses fuel).engine := by
  obtain ⟨supplies, input, ready, stop, _, prepared, stopped, rfl⟩ :=
    exists_drive_of_run succeeded
  exact ⟨supplies.engine plan, input, ready, prepared,
    tellsHalt_of_drive (consistent_engine supplies plan) (supplies.config_engine plan) stopped⟩

/-- A machine that has executed its only instruction. -/
def haltedMachine : Machine := ⟨.ofList [0], .zero, [], none, haltedResult⟩

def haltedDesk : Desk :=
  .start ⟨[("program", [0, 0]), ("state", Snapshot.encode haltedMachine)]⟩ []

/-- Restores the halted machine. -/
def haltedPlan (maxSteps : Option Nat) : Plan :=
  { Plan.plain "program" with state := some "state", maxSteps }

theorem exit_status_tells_halt_of_halted :
    (haltedDesk.perform (Session.run (haltedPlan (some 1)) none 1)).1 =
        .ok ⟨.halted 1 .restored, 0, 1, none, none⟩ ∧
      ∃ first input ready, Succeeds (prepare (haltedPlan (some 1))) haltedDesk (first, input) ready ∧
        TellsHalt (haltedPlan (some 1)) ⟨.halted 1 .restored, 0, 1, none, none⟩ first
          (drive first (Console.start input false none) false 1).engine := by
  have reported : (haltedDesk.perform (Session.run (haltedPlan (some 1)) none 1)).1 =
      .ok ⟨.halted 1 .restored, 0, 1, none, none⟩ :=
    Snapshot.toOption_eq_some_iff.mp (by decide +kernel)
  have succeeded := Prod.eta (haltedDesk.perform (Session.run (haltedPlan (some 1)) none 1))
  rw [reported] at succeeded
  exact ⟨reported, exit_status_tells_halt succeeded.symm⟩

/-- Without a step, the halt of the restored machine is not reported. -/
theorem completed_though_halted :
    ∃ report, (haltedDesk.perform (Session.run (haltedPlan (some 0)) none 1)).1 = .ok report ∧
      report.pc = none ∧ report.result = 1 ∧ report.exitCode = 0 ∧
      ¬ ((∃ code, report.stop.HaltsWith code) ↔ report.pc = none) := by
  refine ⟨⟨.completed, 0, 1, none, none⟩, Snapshot.toOption_eq_some_iff.mp (by decide +kernel),
    rfl, rfl, rfl, ?_⟩
  intro tells
  obtain ⟨code, reason, isHalt⟩ := tells.mpr rfl
  cases isHalt

end Session

end RegisterMachine
