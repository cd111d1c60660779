import RegisterMachine.CommandLine
import RegisterMachine.Proofs.Session.ExitStatus

/-!
Contract: only saved machines have results other than zero and one.

The result of a machine is zero when its program is loaded. A halt for any
reason but the end of the program sets it to one, and nothing else changes it;
a machine that goes on after a halt keeps it. So the result tells what has
happened since the program was loaded, and the exit code of a session without
a snapshot is never that of a failure.

Owns: `Engine.Past`, results by history, exit codes of sessions without a
snapshot.
Does not own: the results of restored machines.
-/

namespace RegisterMachine

/-! ## Halts that set the result -/

/-- A halt for another reason than the end of the program. -/
def Outcome.stops (outcome : Outcome) : Bool :=
  match outcome.haltReason? with
  | none | some .endOfProgram => false
  | some _ => true

/-- The operation has ended in a halt for another reason than the end of the program. -/
def Answer.stops : Answer → Bool
  | .ended outcome => outcome.stops
  | .ran outcome? _ => outcome?.any Outcome.stops
  | .done | .popped _ | .changed _ => false

/-- The machine is that of no snapshot. -/
structure Engine.Unrestored (engine : Engine) : Prop where
  consistent : engine.Consistent
  reason : engine.reason ≠ some .restored

/-- What has been done with an engine has set the result if it stopped the machine, and has kept it
otherwise. -/
structure Engine.Leads (engine : Engine) (stops : Bool) (after : Engine) : Prop where
  unrestored : after.Unrestored
  result : after.result = if stops then 1 else engine.result

/-- The engine results from operations on a new one, each of them on any host, and none of them
restores a machine. The machine has `stopped` if, since its program was loaded, an operation has
ended in a halt for another reason than the end of the program. -/
inductive Engine.Past : (stopped : Bool) → Engine → Prop where
  | fresh (memory : Memory) (config : EngineConfig) : Past false (.fresh memory config)
  | loaded {stopped : Bool} {engine : Engine} (image : Bytes) (before : Past stopped engine) :
      Past false (engine.load image)
  | operated {stopped : Bool} {engine : Engine} {H : Type} [Host H] (host : H)
      (operation : Operation) (noLoad : ∀ image, operation ≠ .load image)
      (noRestore : ∀ machine, operation ≠ .restore machine) (before : Past stopped engine) :
      Past (stopped || (engine.operate host operation).answer.stops)
        (engine.operate host operation).engine

namespace Engine

variable {engine middle after : Engine} {stops : Bool}

theorem unrestored_fresh (memory : Memory) (config : EngineConfig) :
    (fresh memory config).Unrestored :=
  ⟨consistent_fresh memory config, nofun⟩

theorem Unrestored.leads_refl (unrestored : engine.Unrestored) : engine.Leads false engine :=
  ⟨unrestored, rfl⟩

/-- What does not stop the machine may be left out. -/
theorem Leads.trans (first : engine.Leads false middle) (later : middle.Leads stops after) :
    engine.Leads stops after := by
  refine ⟨later.unrestored, ?_⟩
  rw [later.result, first.result]
  rfl

/-- What keeps program counter, result, suspension and halt reason leads nowhere. -/
theorem Unrestored.leads_of_eq (unrestored : engine.Unrestored)
    (pc : after.machine.pc = engine.machine.pc) (result : after.machine.result = engine.result)
    (suspension : after.suspension = engine.suspension) (reason : after.reason = engine.reason) :
    engine.Leads false after := by
  refine ⟨⟨unrestored.consistent.congr pc result suspension reason, ?_⟩, result⟩
  rw [reason]
  exact unrestored.reason

/-! ## Cycles -/

section
variable {H : Type} {host : H}

theorem leads_conclude {instruction : Instruction} {execution : Execution H}
    (settled : (engine.conclude instruction execution).Settled)
    (reason : engine.reason ≠ some .restored)
    (result : execution.machine.result = engine.result) :
    engine.Leads (engine.conclude instruction execution).outcome.stops
      (engine.conclude instruction execution).engine := by
  have consistent := settled.consistent
  unfold conclude at consistent ⊢
  split at consistent
  · exact ⟨⟨consistent, reason⟩, result⟩
  · exact ⟨⟨consistent, reason⟩, result⟩
  · exact ⟨⟨consistent, nofun⟩, rfl⟩
  · exact ⟨⟨consistent, reason⟩, result⟩
  · exact ⟨⟨consistent, nofun⟩, rfl⟩

variable [Host H]

theorem leads_handle {instruction : Instruction} {bypass : Bool}
    (settled : (engine.handle host bypass instruction).Settled)
    (reason : engine.reason ≠ some .restored) :
    engine.Leads (engine.handle host bypass instruction).outcome.stops
      (engine.handle host bypass instruction).engine := by
  unfold handle at settled ⊢
  simp only at settled ⊢
  split
  · next breaking =>
      rw [if_pos breaking] at settled
      exact ⟨⟨settled.consistent, reason⟩, rfl⟩
  · next passing =>
      rw [if_neg passing, perform_eq_conclude] at settled
      rw [perform_eq_conclude]
      exact leads_conclude settled reason (altered_execute _ _ _).result

/-- A cycle of a halted machine tells its halt once more. -/
theorem Unrestored.leads_halted (unrestored : engine.Unrestored)
    (counter : engine.machine.pc = none) : engine.Leads engine.haltedOutcome.stops engine := by
  refine ⟨unrestored, ?_⟩
  obtain ⟨reason, isReason⟩ :=
    Option.isSome_iff_exists.mp (unrestored.consistent.reason_iff.mpr counter)
  have unlike := unrestored.reason
  have result := unrestored.consistent.result reason isReason
  rw [isReason] at unlike
  rw [haltedOutcome, isReason]
  cases reason with
  | endOfProgram => rfl
  | restored => exact absurd rfl unlike
  | instruction | requested | fault _ => exact result rfl

theorem leads_cycle (unrestored : engine.Unrestored) (host : H) (bypass : Bool) :
    engine.Leads (engine.cycle host bypass).outcome.stops (engine.cycle host bypass).engine := by
  have settled := settled_cycle unrestored.consistent host bypass
  cases counter : engine.machine.pc with
  | none =>
      rw [cycle_of_halted counter]
      exact unrestored.leads_halted counter
  | some pc =>
      unfold cycle at settled ⊢
      simp only [counter] at settled ⊢
      cases found : decode engine.machine.memory pc with
      | endOfProgram => exact ⟨⟨consistent_finish _ nofun, nofun⟩, rfl⟩
      | fault fault => exact ⟨⟨consistent_finish _ fun _ => rfl, nofun⟩, rfl⟩
      | instruction instruction =>
          simp only [found] at settled ⊢
          have leads := leads_handle settled unrestored.reason
          exact ⟨leads.unrestored, leads.result⟩

/-! ## Steps and runs -/

theorem leads_cycles (unrestored : engine.Unrestored) (host : H) (count : Nat) :
    engine.Leads (engine.cycles host count).outcome.stops (engine.cycles host count).engine := by
  induction count generalizing engine host with
  | zero => exact unrestored.leads_refl
  | succ count inductionHypothesis =>
      have first := leads_cycle unrestored host false
      rcases cycled : engine.cycle host false with ⟨outcome, next, nextHost⟩
      rw [cycled] at first
      rw [cycles, cycled]
      cases outcome with
      | completed => exact first.trans (inductionHypothesis first.unrestored nextHost)
      | suspended _ | halted _ _ => exact first

theorem leads_step (unrestored : engine.Unrestored) (host : H) (count : Nat) :
    engine.Leads (engine.step host count).outcome.stops (engine.step host count).engine := by
  unfold step
  split
  · exact leads_cycle unrestored host true
  · exact leads_cycles unrestored host count

theorem leads_resume (unrestored : engine.Unrestored) (host : H) (steps fuel : Nat) :
    engine.Leads ((engine.resume host steps fuel).outcome?.any Outcome.stops)
      (engine.resume host steps fuel).engine := by
  induction fuel generalizing engine host steps with
  | zero => exact unrestored.leads_refl
  | succ fuel inductionHypothesis =>
      have first := leads_cycle unrestored host false
      rcases cycled : engine.cycle host false with ⟨outcome, next, nextHost⟩
      rw [cycled] at first
      rw [resume, cycled]
      split
      · exact unrestored.leads_refl
      · cases outcome with
        | completed => exact first.trans (inductionHypothesis first.unrestored nextHost (steps + 1))
        | suspended _ | halted _ _ => exact first

/-! ## Operations -/

theorem leads_operate (unrestored : engine.Unrestored) (host : H) (operation : Operation)
    (noLoad : ∀ image, operation ≠ .load image)
    (noRestore : ∀ machine, operation ≠ .restore machine) :
    engine.Leads (engine.operate host operation).answer.stops
      (engine.operate host operation).engine := by
  cases operation with
  | step count => exact leads_step unrestored host count
  | run fuel => exact leads_resume unrestored host 0 fuel
  | halt => exact ⟨⟨consistent_finish engine fun _ => rfl, nofun⟩, rfl⟩
  | jump address => exact ⟨⟨consistent_jump engine address, nofun⟩, rfl⟩
  | pop =>
      have popped : engine.machine.pop.2.result = engine.result := by
        unfold Machine.pop
        split <;> rfl
      exact ⟨⟨consistent_pop unrestored.consistent, unrestored.reason⟩, popped⟩
  | write _ _ | setRegister _ _ | push _ | addBreakpoint _ | removeBreakpoint _
  | clearBreakpoints => exact unrestored.leads_of_eq rfl rfl rfl rfl
  | load image => exact absurd rfl (noLoad image)
  | restore machine => exact absurd rfl (noRestore machine)

end

/-- The result tells whether the machine has been stopped. -/
theorem result_of_past {stopped : Bool} (past : Past stopped engine) :
    engine.Unrestored ∧ engine.result = if stopped then 1 else 0 := by
  induction past with
  | fresh memory config => exact ⟨unrestored_fresh memory config, rfl⟩
  | loaded image _ _ => exact ⟨unrestored_fresh _ _, rfl⟩
  | @operated stopped engine H _ host operation noLoad noRestore _ inductionHypothesis =>
      obtain ⟨unrestored, result⟩ := inductionHypothesis
      have leads := leads_operate unrestored host operation noLoad noRestore
      refine ⟨leads.unrestored, ?_⟩
      rw [leads.result, result]
      cases stopped <;> cases (engine.operate host operation).answer.stops <;> rfl

end Engine

/-! ## Sessions -/

namespace Session

open Engine

variable {plan : Plan} {desk after : Desk}

theorem leads_drive {H : Type} [Host H] {engine : Engine} (unrestored : engine.Unrestored)
    (host : H) (bypass : Bool) (fuel : Nat) :
    engine.Leads ((drive engine host bypass fuel).outcome?.any Outcome.stops)
      (drive engine host bypass fuel).engine := by
  have first := leads_cycle unrestored host true
  have driven := drives engine host bypass fuel
  generalize drive engine host bypass fuel = run at driven ⊢
  cases driven with
  | obeys => exact leads_resume unrestored host 0 fuel
  | @goesOn next nextHost cycled =>
      rw [cycled] at first
      exact first.trans (leads_resume first.unrestored nextHost 0 fuel)
  | ended cycled _ =>
      rw [cycled] at first
      exact first

/-- The machine of a session without a snapshot begins with its program. -/
theorem unrestored_engine {supplies : Supplies} (noMachine : supplies.machine = none)
    (plan : Plan) : (supplies.engine plan).Unrestored ∧ (supplies.engine plan).result = 0 := by
  rw [supplies.engine_eq, Supplies.loaded, noMachine]
  have loaded := unrestored_fresh (.ofBytes supplies.image) plan.engineConfig
  exact ⟨Leads.unrestored (loaded.leads_of_eq rfl rfl rfl rfl), rfl⟩

theorem exists_haltsWith_of_stops {outcome : Outcome} (stops : outcome.stops = true) :
    ∃ code, outcome.HaltsWith code := by
  cases outcome with
  | halted code reason => exact ⟨code, reason, rfl⟩
  | completed | suspended _ => cases stops

/-- A session without a snapshot exits with one if it has stopped its machine, and with zero
otherwise. -/
theorem exitCode_of_run {room : Option Nat} {fuel : Nat} {report : Report}
    (plain : plan.state = none)
    (succeeded : desk.perform (Session.run plan room fuel) = (.ok report, after)) :
    report.exitCode = if report.stop.stops then 1 else 0 := by
  obtain ⟨supplies, input, ready, stop, isMachine, _, stopped, rfl⟩ :=
    exists_drive_of_run succeeded
  rw [plain] at isMachine
  have noMachine : supplies.machine = none := by
    generalize supplies.machine = machine at isMachine
    cases isMachine
    rfl
  obtain ⟨unrestored, zero⟩ := unrestored_engine noMachine plan
  have tells := tellsHalt_of_drive unrestored.consistent (supplies.config_engine plan) stopped
  have leads := leads_drive unrestored (Console.start input plan.trace.isSome room) plan.bypasses
    fuel
  rw [stopped, Option.any_some] at leads
  have result := leads.result
  rw [zero] at result
  show Report.exitCode _ = if stop.stops then 1 else 0
  cases stops : stop.stops with
  | true =>
      obtain ⟨code, halts⟩ := exists_haltsWith_of_stops stops
      obtain ⟨_, _, isCode⟩ := (tells.stop code).mp halts
      rw [exitCode_of_haltsWith halts, ← isCode, result, stops]
      rfl
  | false =>
      rw [tells.exitCode, result, stops]
      split <;> rfl

end Session

/-! ## The command line -/

namespace CommandLine

/-- The exit code of a run is that of its report, or that of failures. -/
theorem serve_run {arguments : List String} {plan : Session.Plan} {desk : Desk} {fuel : Nat}
    (isRun : Arguments.read arguments = .ok (.run plan)) :
    (desk.perform (serve arguments fuel)).1 =
      match (desk.perform (Session.run plan none fuel)).1 with
      | .ok report => report.exitCode
      | .error _ => failureCode := by
  have ran : desk.perform
      (perform (.run plan) fuel : ExceptT Session.Error (StateM Desk) Nat).run =
        match desk.perform (Session.run plan none fuel) with
        | (.ok report, after) => (.ok report.exitCode, after.note (.message report.text))
        | (.error error, after) => (.error error, after) := by
    unfold perform run
    rw [Session.perform_run_bind, ExceptT.run_mk]
    rcases desk.perform (Session.run plan none fuel) with ⟨_ | _, _⟩ <;> rfl
  unfold serve
  rw [isRun]
  simp only
  rw [Desk.perform_bind, ran]
  rcases desk.perform (Session.run plan none fuel) with ⟨_ | _, _⟩ <;> rfl

/-- Without a snapshot, the code of failures is given for failed sessions only. -/
theorem serve_eq_failureCode_iff {arguments : List String} {plan : Session.Plan} (desk : Desk)
    (fuel : Nat) (isRun : Arguments.read arguments = .ok (.run plan)) (plain : plan.state = none) :
    (desk.perform (serve arguments fuel)).1 = failureCode ↔
      ∃ error, (desk.perform (Session.run plan none fuel)).1 = .error error := by
  rw [serve_run isRun]
  rcases ran : desk.perform (Session.run plan none fuel) with ⟨error | report, after⟩
  · exact ⟨fun _ => ⟨error, rfl⟩, fun _ => rfl⟩
  · show report.exitCode = failureCode ↔ _
    rw [Session.exitCode_of_run plain ran]
    constructor
    · cases report.stop.stops <;> nofun
    · rintro ⟨_, failed⟩
      cases failed

end CommandLine

/-- Without a snapshot, the result of a machine is one if it has been stopped since its program was
loaded, and zero otherwise. So a session exits with one or zero, and the command line gives the
code of failures for no session that succeeds. -/
theorem result_codes_without_restore :
    (∀ (stopped : Bool) (engine : Engine), Engine.Past stopped engine →
      engine.result = if stopped then 1 else 0) ∧
    (∀ (plan : Session.Plan) (desk after : Desk) (room : Option Nat) (fuel : Nat)
      (report : Session.Report), plan.state = none →
        desk.perform (Session.run plan room fuel) = (.ok report, after) →
          report.exitCode = if report.stop.stops then 1 else 0) ∧
    ∀ (arguments : List String) (plan : Session.Plan) (desk : Desk) (fuel : Nat),
      Arguments.read arguments = .ok (.run plan) → plan.state = none →
        ((desk.perform (CommandLine.serve arguments fuel)).1 = CommandLine.failureCode ↔
          ∃ error, (desk.perform (Session.run plan none fuel)).1 = .error error) := by
  refine ⟨?_, ?_, ?_⟩
  · intro stopped engine past
    exact (Engine.result_of_past past).2
  · intro plan desk after room fuel report plain succeeded
    exact Session.exitCode_of_run plain succeeded
  · intro arguments plan desk fuel isRun plain
    exact CommandLine.serve_eq_failureCode_iff desk fuel isRun plain

/-- Runs to a `halt`, goes on behind the end of the program, and halts there. -/
def operationsOfRevived : List Operation := [.run 2, .jump 1, .run 2]

def revived : Engine :=
  operationsOfRevived.foldl
    (fun engine operation => (engine.operate (BufferedHost.start true) operation).engine)
    (.fresh (.ofList [0]) .standard)

theorem past_revived : Engine.Past true revived := by
  have fresh := Engine.Past.fresh (.ofList [0]) .standard
  have halted := fresh.operated (BufferedHost.start true) (.run 2) nofun nofun
  have moved := halted.operated (BufferedHost.start true) (.jump 1) nofun nofun
  exact moved.operated (BufferedHost.start true) (.run 2) nofun nofun

/-- The name of no file. -/
def absentPlan : Session.Plan := .plain "absent"

theorem result_codes_without_restore_of_revived :
    (Engine.Past true revived ∧ revived.reason = some .endOfProgram ∧ revived.result = 1) ∧
    (∃ report, (Session.haltedDesk.perform (Session.run (.plain "program") none 1)).1 = .ok report ∧
      report.exitCode = 1) ∧
    Arguments.read ["run", "absent"] = .ok (.run absentPlan) ∧
      (Session.haltedDesk.perform (CommandLine.serve ["run", "absent"] 1)).1 =
        CommandLine.failureCode := by
  obtain ⟨results, sessions, commands⟩ := result_codes_without_restore
  refine ⟨⟨past_revived, by decide, results true revived past_revived⟩, ?_, ?_⟩
  · have reported : (Session.haltedDesk.perform (Session.run (.plain "program") none 1)).1 =
        .ok ⟨.halted 1 .instruction, 0, 1, none, none⟩ :=
      Snapshot.toOption_eq_some_iff.mp (by decide +kernel)
    have succeeded := Prod.eta (Session.haltedDesk.perform (Session.run (.plain "program") none 1))
    rw [reported] at succeeded
    exact ⟨_, reported, sessions (.plain "program") _ _ none 1 _ rfl succeeded.symm⟩
  · have isRun : Arguments.read ["run", "absent"] = .ok (.run absentPlan) :=
      Snapshot.toOption_eq_some_iff.mp (by decide +kernel)
    have failed : (Session.haltedDesk.perform (Session.run absentPlan none 1)).1 =
        .error (.file "absent" .notFound) := rfl
    exact ⟨isRun, (commands _ absentPlan Session.haltedDesk 1 isRun rfl).mpr ⟨_, failed⟩⟩

end RegisterMachine
