import RegisterMachine.Proofs.BreakpointPassing
import RegisterMachine.Proofs.Restoration
import RegisterMachine.Proofs.Session.Mirroring

/-!
Contract: a run that is taken up again goes on as if it had not been left.

A session that goes on from a breakpoint has an engine that cannot be told from
the one that was stopped, and a host that has printed nothing yet. So it prints
what the stopped run would have printed next. The runs that follow each other in
this way come to the end of the run that passes all breakpoints.

Owns: `Continues`, and the runs that go on from breakpoints.
Does not own: the files in between (`Proofs.Session.Chain`).
-/

namespace RegisterMachine

namespace Engine

variable {H : Type} [Host H]

theorem pass_succ (fuel rounds steps : Nat) (run : Run H) :
    pass fuel rounds steps { run with steps := run.steps + 1 } =
      pass fuel rounds (steps + 1) run := by
  obtain ⟨outcome?, done, engine, host⟩ := run
  have counted : steps + (done + 1) = steps + 1 + done := by omega
  cases outcome? with
  | none => simp only [pass, counted]
  | some outcome =>
      cases outcome with
      | completed | halted _ _ => simp only [pass, counted]
      | suspended cause =>
          cases cause with
          | needsInput => simp only [pass, counted]
          | breakpoint address => rw [pass_of_breakpoint, pass_of_breakpoint, counted]

/-- A run that no breakpoint has stopped is not followed by others. -/
theorem pass_of_not_breakpoint (fuel rounds steps : Nat) {run : Run H}
    (settled : ∀ address, run.outcome? ≠ some (.suspended (.breakpoint address))) :
    pass fuel rounds steps run = { run with steps := steps + run.steps } := by
  obtain ⟨outcome?, done, engine, host⟩ := run
  cases outcome? with
  | none => simp only [pass]
  | some outcome =>
      exact pass_of_settled fuel rounds steps done engine host fun address same =>
        settled address (congrArg some same)

end Engine

namespace Session

open Engine

/-! ## Driving -/

section
variable {H : Type} [Host H] {engine left right : Engine} {host : H} {bypass : Bool} {fuel : Nat}

theorem drive_interchangeable (same : left.Interchangeable right) (host : H) (bypass : Bool)
    (fuel : Nat) :
    (drive left host bypass fuel).Interchangeable (drive right host bypass fuel) := by
  cases bypass with
  | false => exact resume_interchangeable same host 0 fuel
  | true =>
      have stepped := step_interchangeable same host 0
      simp only [drive, if_true]
      rcases leftStep : left.step host 0 with ⟨outcome, leftNext, next⟩
      rcases rightStep : right.step host 0 with ⟨rightOutcome, rightNext, rightHost⟩
      rw [leftStep, rightStep] at stepped
      obtain ⟨rfl, nextSame, rfl⟩ := stepped
      cases outcome with
      | completed =>
          have rest := resume_interchangeable nextSame next 0 fuel
          exact ⟨rest.outcome?, congrArg (· + 1) rest.steps, rest.engine, rest.host⟩
      | suspended _ | halted _ _ => exact ⟨rfl, rfl, nextSame, rfl⟩

theorem settings_drive (engine : Engine) (host : H) (bypass : Bool) (fuel : Nat) :
    (drive engine host bypass fuel).engine.config = engine.config ∧
      (drive engine host bypass fuel).engine.breakpoints = engine.breakpoints := by
  have first := settings_cycle engine host true
  have driven := drives engine host bypass fuel
  generalize drive engine host bypass fuel = run at driven ⊢
  cases driven with
  | obeys => exact keptByCycles_settings.run engine host fuel
  | @goesOn next nextHost cycled =>
      rw [cycled] at first
      exact keptByCycles_settings.trans first (keptByCycles_settings.run next nextHost fuel)
  | ended cycled _ =>
      rw [cycled] at first
      exact first

theorem counter_of_run {steps address : Nat} {last : Engine} {lastHost : H}
    (ended : engine.run host fuel =
      ⟨some (.suspended (.breakpoint address)), steps, last, lastHost⟩) :
    last.machine.pc = some address ∧ address ∈ engine.breakpoints := by
  have first := firstHit_of_run ended
  obtain ⟨next, nextHost, _, plain, counter, member, _⟩ := first.hits
  obtain ⟨_, _, _, stopped⟩ := run_of_firstHit first plain (run_eq_iff.mp ended).1
  rw [ended] at stopped
  cases stopped
  exact ⟨counter, member⟩

/-- A machine that a breakpoint has stopped stands there. -/
theorem counter_of_drive {address : Nat}
    (stopped : (drive engine host bypass fuel).outcome? =
      some (.suspended (.breakpoint address))) :
    (drive engine host bypass fuel).engine.machine.pc = some address ∧
      address ∈ engine.breakpoints := by
  have driven := drives engine host bypass fuel
  generalize drive engine host bypass fuel = run at driven stopped ⊢
  cases driven with
  | obeys =>
      rcases ended : engine.run host fuel with ⟨outcome?, steps, last, lastHost⟩
      rw [ended] at stopped
      cases stopped
      exact counter_of_run ended
  | @goesOn next nextHost cycled =>
      have breakpoints := (settings_cycle engine host true).2
      rw [cycled] at breakpoints
      rw [← breakpoints]
      rcases ended : next.run nextHost fuel with ⟨outcome?, steps, last, lastHost⟩
      rw [ended] at stopped
      cases stopped
      exact counter_of_run ended
  | ended cycled _ =>
      have passes := cycle_bypass_not_breakpoint engine host address
      rw [cycled] at passes
      exact absurd (Option.some.inj stopped) passes

end

/-! ## Going on -/

/-- The second host has printed `before` and then what the first one has; neither has any input. -/
structure Continues (before : Array Word) (fresh going : BufferedHost) : Prop where
  freshEmpty : fresh.input.pending = []
  goingEmpty : going.input.pending = []
  output : going.output = before ++ fresh.output

/-- The second run has printed `before` and then done what the first one has. -/
structure RunContinues (before : Array Word) (fresh going : Run BufferedHost) : Prop where
  outcome? : fresh.outcome? = going.outcome?
  steps : fresh.steps = going.steps
  engine : fresh.engine.Interchangeable going.engine
  host : Continues before fresh.host going.host

variable {before : Array Word} {fresh going : BufferedHost}

theorem servesAlike_continues (before : Array Word) (tracing : Bool) :
    ServesAlike (Continues before) tracing tracing where
  emit code continues := by
    refine ⟨continues.freshEmpty, continues.goingEmpty, ?_⟩
    simp only [Host.emit, continues.output, Array.append_push]
  takes continues :=
    .exhausted (BufferedHost.take?_of_pending_nil continues.freshEmpty)
      (BufferedHost.take?_of_pending_nil continues.goingEmpty)
  announced instruction registers breaking continues := by
    refine ⟨?_, ?_, ?_⟩
    · rw [input_announce, continues.freshEmpty]
    · rw [input_announce, continues.goingEmpty]
    · rw [output_announce, output_announce, continues.output]

theorem drive_continues {left right : Engine} (same : left.Interchangeable right)
    (continues : Continues before fresh going) (bypass : Bool) (fuel : Nat) :
    RunContinues before (drive left fresh bypass fuel) (drive right going bypass fuel) := by
  have alike := @drive_alike _ _ _ _ _ fresh going left (servesAlike_continues before _) bypass
    fuel continues
  have interchanged := drive_interchangeable same going bypass fuel
  refine ⟨alike.outcome?.trans interchanged.outcome?, alike.steps.trans interchanged.steps, ?_, ?_⟩
  · rw [alike.engine]
    exact interchanged.engine
  · rw [← interchanged.host]
    exact alike.host

/-- A run only adds to what has been printed. -/
theorem continues_drive (engine : Engine) (empty : going.input.pending = []) (bypass : Bool)
    (fuel : Nat) :
    (drive engine going bypass fuel).host.input.pending = [] ∧
      ∃ more, (drive engine going bypass fuel).host.output = going.output ++ more := by
  have start : Continues going.output { going with output := #[] } going := ⟨empty, empty, by simp⟩
  have continues := (drive_continues (interchangeable_refl engine) start bypass fuel).host
  exact ⟨continues.goingEmpty, _, continues.output⟩

/-! ## From breakpoint to breakpoint -/

theorem settled_or_breakpoint {H : Type} (run : Run H) :
    (∀ address, run.outcome? ≠ some (.suspended (.breakpoint address))) ∨
      ∃ address done engine host,
        run = ⟨some (.suspended (.breakpoint address)), done, engine, host⟩ := by
  obtain ⟨outcome?, done, engine, host⟩ := run
  by_cases paused : ∃ address, outcome? = some (.suspended (.breakpoint address))
  · obtain ⟨address, rfl⟩ := paused
    exact .inr ⟨address, done, engine, host, rfl⟩
  · exact .inl fun address same => paused ⟨address, same⟩

section
variable {H : Type} [Host H]

/-- The run is followed by at most `rounds` others, each of which goes on from the breakpoint that
has stopped the one before; they complete `total` steps together, and `last` is the last of them. -/
inductive GoesOnTo (fuel : Nat) :
    (rounds : Nat) → Run H → (total : Nat) → (last : Run H) → Prop where
  | ended {rounds : Nat} {run : Run H}
      (settled : ∀ address, run.outcome? ≠ some (.suspended (.breakpoint address))) :
      GoesOnTo fuel rounds run run.steps run
  | resumed {rounds total address done : Nat} {engine : Engine} {host : H} {last : Run H}
      (later : GoesOnTo fuel rounds (drive engine host true fuel) total last) :
      GoesOnTo fuel (rounds + 1) ⟨some (.suspended (.breakpoint address)), done, engine, host⟩
        (done + total) last

/-- Passing a breakpoint is driving on from it. The last step may be one past a breakpoint that is
not completed, and needs no further run. -/
theorem pass_of_drive {fuel rounds steps address done : Nat} {engine : Engine} {host : H}
    {final : Run H} {outcome : Outcome}
    (passes : pass fuel rounds steps
      ⟨some (.suspended (.breakpoint address)), done, engine, host⟩ = final)
    (stopped : final.outcome? = some outcome) :
    ((∀ other, (drive engine host true fuel).outcome? ≠ some (.suspended (.breakpoint other))) ∧
        pass fuel rounds (steps + done) (drive engine host true fuel) = final) ∨
      ∃ fewer, rounds = fewer + 1 ∧
        pass fuel fewer (steps + done) (drive engine host true fuel) = final := by
  have passing := cycle_bypass_not_breakpoint engine host
  rw [pass_of_breakpoint] at passes
  simp only [drive, if_true]
  rcases stepped : engine.step host 0 with ⟨cycleOutcome, next, nextHost⟩
  have cycled : engine.cycle host true = ⟨cycleOutcome, next, nextHost⟩ := stepped
  rw [stepped] at passes
  rw [cycled] at passing
  cases cycleOutcome with
  | completed =>
      cases rounds with
      | zero =>
          rw [← passes] at stopped
          cases stopped
      | succ fewer =>
          refine .inr ⟨fewer, rfl, ?_⟩
          simp only [pass_succ]
          exact passes
  | suspended _ | halted _ _ =>
      have settled := fun other same => passing other (Option.some.inj same)
      refine .inl ⟨settled, ?_⟩
      rw [pass_of_not_breakpoint fuel rounds _ settled]
      exact passes

/-- To pass all breakpoints is to go on from each of them. -/
theorem goesOnTo_of_pass {fuel rounds steps : Nat} {run final : Run H} {outcome : Outcome}
    (passes : pass fuel rounds steps run = final) (stopped : final.outcome? = some outcome) :
    ∃ total last, GoesOnTo fuel (rounds + 1) run total last ∧
      final = { last with steps := steps + total } := by
  induction rounds using Nat.strongRecOn generalizing run steps with
  | ind rounds inductionHypothesis =>
      rcases settled_or_breakpoint run with settled | ⟨address, done, engine, host, rfl⟩
      · rw [pass_of_not_breakpoint fuel rounds steps settled] at passes
        exact ⟨_, run, .ended settled, passes.symm⟩
      · rcases pass_of_drive passes stopped with ⟨settled, ended⟩ | ⟨fewer, rfl, goesOn⟩
        · rw [pass_of_not_breakpoint fuel rounds _ settled, Nat.add_assoc] at ended
          exact ⟨_, _, .resumed (.ended settled), ended.symm⟩
        · obtain ⟨total, last, later, isFinal⟩ :=
            inductionHypothesis fewer (Nat.lt_succ_self fewer) goesOn
          rw [Nat.add_assoc] at isFinal
          exact ⟨_, last, .resumed later, isFinal⟩

end

/-- What a run has printed is the beginning of what has been printed at the end. -/
theorem GoesOnTo.exists_output {fuel rounds total : Nat} {run last : Run BufferedHost}
    (goesOn : GoesOnTo fuel rounds run total last) (empty : run.host.input.pending = []) :
    ∃ more, last.host.output = run.host.output ++ more := by
  induction goesOn with
  | ended _ => exact ⟨#[], Array.append_empty.symm⟩
  | @resumed _ _ _ _ engine host _ _ inductionHypothesis =>
      obtain ⟨stillEmpty, next, printed⟩ := continues_drive engine empty true fuel
      obtain ⟨more, isLast⟩ := inductionHypothesis stillEmpty
      exact ⟨next ++ more, by rw [isLast, printed, Array.append_assoc]⟩

end Session

end RegisterMachine
