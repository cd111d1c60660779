import RegisterMachine.Proofs.HostSimulation

/-!
Contract: breakpoints do not change what a program computes.

A user who steps past every breakpoint that a run hits, and runs again, sees the
machine that a run without breakpoints would have shown: it ends at the same
place, with the same output and after as many steps. The trace has gained the
events of the breakpoints, and nothing else.

Owns: `runPast`, and its agreement with a run without breakpoints.
Does not own: cycles at a breakpoint (`Proofs.Cycle`).
-/

namespace RegisterMachine

namespace Engine

section
variable {H : Type} [Host H]

/-- Goes on after a run. A run that a breakpoint stopped is followed by one step past it and, once
that is completed, by another run, of which there are at most `rounds`. -/
def pass (fuel rounds steps : Nat) (run : Run H) : Run H :=
  match run with
  | ⟨some (.suspended (.breakpoint _)), done, engine, host⟩ =>
      match engine.step host 0, rounds with
      | ⟨.completed, engine, host⟩, rounds + 1 =>
          pass fuel rounds (steps + done + 1) (engine.run host fuel)
      | ⟨.completed, engine, host⟩, 0 => ⟨none, steps + done + 1, engine, host⟩
      | ⟨outcome, engine, host⟩, _ => ⟨some outcome, steps + done, engine, host⟩
  | ⟨outcome?, done, engine, host⟩ => ⟨outcome?, steps + done, engine, host⟩

/-- Runs past all breakpoints. -/
def runPast (engine : Engine) (host : H) (fuel rounds : Nat) : Run H :=
  pass fuel rounds 0 (engine.run host fuel)

/-! ## One cycle with and without breakpoints -/

theorem resume_clearBreakpoints (engine : Engine) (host : H) (count fuel : Nat)
    (unlimited : engine.config.stepLimit = none) :
    engine.clearBreakpoints.resume host count (fuel + 1) =
      match engine.cycle host true with
      | ⟨.completed, next, host⟩ => next.clearBreakpoints.resume host (count + 1) fuel
      | ⟨outcome, last, host⟩ => ⟨some outcome, count, last.clearBreakpoints, host⟩ := by
  have cleared := cycle_clearBreakpoints engine host
  have clearedUnlimited : engine.clearBreakpoints.config.stepLimit = none := unlimited
  split
  · next next nextHost completed =>
      rw [completed] at cleared
      exact resume_of_completed count fuel clearedUnlimited cleared
  · next outcome last lastHost incomplete stopped =>
      rw [stopped] at cleared
      exact resume_of_stopped count fuel clearedUnlimited cleared incomplete

theorem pass_of_settled (fuel rounds steps done : Nat) {outcome : Outcome} (engine : Engine)
    (host : H) (passing : ∀ address, outcome ≠ .suspended (.breakpoint address)) :
    pass fuel rounds steps ⟨some outcome, done, engine, host⟩ =
      ⟨some outcome, steps + done, engine, host⟩ := by
  unfold pass
  cases outcome with
  | completed => rfl
  | halted _ _ => rfl
  | suspended cause =>
      cases cause with
      | needsInput => rfl
      | breakpoint address => exact absurd rfl (passing address)

theorem pass_of_breakpoint (fuel rounds steps done address : Nat) (engine : Engine) (host : H) :
    pass fuel rounds steps ⟨some (.suspended (.breakpoint address)), done, engine, host⟩ =
      match engine.step host 0, rounds with
      | ⟨.completed, engine, host⟩, rounds + 1 =>
          pass fuel rounds (steps + done + 1) (engine.run host fuel)
      | ⟨.completed, engine, host⟩, 0 => ⟨none, steps + done + 1, engine, host⟩
      | ⟨outcome, engine, host⟩, _ => ⟨some outcome, steps + done, engine, host⟩ := by
  conv => lhs; unfold pass

/-- After a run that was intercepted at once, the step past the breakpoint makes the cycle that the
run would have begun with. -/
theorem pass_of_intercepts {engine : Engine} {instruction : Instruction} (host : H)
    (fuel rounds steps done left : Nat) (unlimited : engine.config.stepLimit = none)
    (intercepts : engine.Intercepts instruction) :
    pass fuel rounds steps (engine.resume host done (left + 1)) =
      match engine.cycle (announce engine.config.tracing host instruction
          engine.machine.registers true) true, rounds with
      | ⟨.completed, next, host⟩, rounds + 1 =>
          pass fuel rounds (steps + done + 1) (next.run host fuel)
      | ⟨.completed, next, host⟩, 0 => ⟨none, steps + done + 1, next, host⟩
      | ⟨outcome, last, host⟩, _ => ⟨some outcome, steps + done, last, host⟩ := by
  have paused := cycle_of_intercepts host intercepts
  rw [resume_of_stopped done left unlimited paused (by intro equal; contradiction),
    pass_of_breakpoint, step, if_pos rfl,
    cycle_forgets_suspension engine _ _ true intercepts.counter]

/-- The next cycle that is made when breakpoints are passed: at once, or by the step past a
breakpoint. -/
inductive PassesCycle (engine : Engine) (host : H) (progress : Progress H) : Prop where
  | direct (made : engine.cycle host false = progress)
  | intercepted {instruction : Instruction} (intercepts : engine.Intercepts instruction)
      (made : engine.cycle (announce engine.config.tracing host instruction
        engine.machine.registers true) true = progress)

/-- From here on, passing all breakpoints leads to this end, however many steps belong to earlier
runs and whatever fuel there is from `fuel` on. Each further run follows a step, so as many of them
suffice as steps are left. -/
def PassesTo (engine : Engine) (host : H) (count fuel : Nat) (final : Run H) : Prop :=
  ∀ rounds steps done left budget, final.steps ≤ count + rounds → steps + done = count →
    fuel ≤ left → fuel ≤ budget →
    pass budget rounds steps (engine.resume host done left) = final

variable {engine next last : Engine} {host nextHost lastHost : H} {count fuel : Nat}

theorem passesTo_of_completed {final : Run H} (unlimited : engine.config.stepLimit = none)
    (completed : engine.PassesCycle host ⟨.completed, next, nextHost⟩)
    (later : count < final.steps) (goesOn : PassesTo next nextHost (count + 1) fuel final) :
    PassesTo engine host count (fuel + 1) final := by
  intro rounds steps done left budget allowed counted enough budgetEnough
  obtain ⟨left, rfl⟩ := Nat.exists_eq_succ_of_ne_zero (Nat.ne_zero_of_lt enough)
  cases completed with
  | direct made =>
      rw [resume_of_completed done left unlimited made]
      exact goesOn rounds steps (done + 1) left budget (by omega) (by omega) (by omega) (by omega)
  | intercepted intercepts made =>
      -- The step past this breakpoint is still to be counted, so a further run is allowed.
      obtain ⟨rounds, rfl⟩ : ∃ fewer, rounds = fewer + 1 := ⟨rounds - 1, by omega⟩
      rw [pass_of_intercepts host budget _ steps done left unlimited intercepts, made]
      exact goesOn rounds (steps + done + 1) 0 budget budget (by omega) (by omega) (by omega)
        (by omega)

theorem passesTo_of_stopped {outcome : Outcome} (unlimited : engine.config.stepLimit = none)
    (stopped : engine.PassesCycle host ⟨outcome, last, lastHost⟩)
    (incomplete : outcome ≠ .completed)
    (passing : ∀ address, outcome ≠ .suspended (.breakpoint address)) :
    PassesTo engine host count (fuel + 1) ⟨some outcome, count, last, lastHost⟩ := by
  intro rounds steps done left budget _ counted enough _
  obtain ⟨left, rfl⟩ := Nat.exists_eq_succ_of_ne_zero (Nat.ne_zero_of_lt enough)
  cases stopped with
  | direct made =>
      rw [resume_of_stopped done left unlimited made incomplete,
        pass_of_settled budget rounds steps done last lastHost passing, counted]
  | intercepted intercepts made =>
      rw [pass_of_intercepts host budget rounds steps done left unlimited intercepts, made]
      cases outcome with
      | completed => contradiction
      | suspended _ | halted _ _ => rw [← counted]

end

end Engine

/-! ## Hosts with and without breakpoint events -/

/-- Since the trace was `earlier`, the second host has learned what the first one has, and of
breakpoints besides. -/
structure BufferedHost.AgreesSince (earlier : Array TraceEvent) (plain stopped : BufferedHost) :
    Prop where
  input : stopped.input = plain.input
  output : stopped.output = plain.output
  recordTrace : stopped.recordTrace = plain.recordTrace
  trace : ∃ events : Array TraceEvent, stopped.trace = earlier ++ events ∧
    plain.trace = earlier ++ events.filter fun event => !event.breaking

namespace BufferedHost

variable {earlier : Array TraceEvent} {plain stopped : BufferedHost}

theorem agreesSince_refl (host : BufferedHost) : AgreesSince host.trace host host where
  input := rfl
  output := rfl
  recordTrace := rfl
  trace := ⟨#[], by simp, by simp⟩

theorem agreesSince_observe (event : TraceEvent) (passing : event.breaking = false)
    (agree : AgreesSince earlier plain stopped) :
    AgreesSince earlier (Host.observe plain event) (Host.observe stopped event) := by
  obtain ⟨events, stoppedTrace, plainTrace⟩ := agree.trace
  simp only [Host.observe, agree.recordTrace]
  split
  · refine ⟨agree.input, agree.output, rfl, events.push event, ?_, ?_⟩
    · simp only [stoppedTrace, Array.append_push]
    · rw [Array.filter_push_of_pos (by simp [passing]) (Array.size_push event)]
      simp only [plainTrace, Array.append_push]
  · exact agree

theorem agreesSince_observe_breaking (event : TraceEvent) (breaking : event.breaking = true)
    (agree : AgreesSince earlier plain stopped) :
    AgreesSince earlier plain (Host.observe stopped event) := by
  obtain ⟨events, stoppedTrace, plainTrace⟩ := agree.trace
  simp only [Host.observe]
  split
  · refine ⟨agree.input, agree.output, agree.recordTrace, events.push event, ?_, ?_⟩
    · simp only [stoppedTrace, Array.append_push]
    · rw [Array.filter_push_of_neg (by simp [breaking]) (Array.size_push event)]
      exact plainTrace
  · exact agree

theorem AgreesSince.announce_breaking (engine : Engine) (instruction : Instruction)
    (agree : AgreesSince earlier plain stopped) :
    AgreesSince earlier plain
      (Engine.announce engine.config.tracing stopped instruction engine.machine.registers true) := by
  unfold Engine.announce
  split
  · exact agreesSince_observe_breaking _ rfl agree
  · exact agree

theorem toldAlike_agreesSince : ToldAlike (AgreesSince earlier) where
  emit := by
    intro plain stopped code agree
    refine ⟨agree.input, ?_, agree.recordTrace, agree.trace⟩
    simp only [Host.emit, agree.output]
  observe := by
    intro plain stopped event passing agree
    exact agreesSince_observe event passing agree

theorem takesAlike_agreesSince (agree : AgreesSince earlier plain stopped) :
    TakesAlike (AgreesSince earlier) plain stopped :=
  takesAlike_of_input agree.input fun _ => ⟨rfl, agree.output, agree.recordTrace, agree.trace⟩

end BufferedHost

namespace Engine

open BufferedHost

/-- Whichever way the next cycle is made, it does what it does without breakpoints. -/
theorem exists_passesCycle {earlier : Array TraceEvent} {engine next : Engine}
    {plain stopped plainNext : BufferedHost} {outcome : Outcome}
    (agree : AgreesSince earlier plain stopped)
    (made : engine.cycle plain true = ⟨outcome, next, plainNext⟩) :
    ∃ nextHost, AgreesSince earlier plainNext nextHost ∧
      engine.PassesCycle stopped ⟨outcome, next, nextHost⟩ := by
  have bypassed {host : BufferedHost} (agreeHost : AgreesSince earlier plain host) :
      ∃ nextHost, AgreesSince earlier plainNext nextHost ∧
        engine.cycle host true = ⟨outcome, next, nextHost⟩ := by
    apply Progress.exists_eq_of_alike
    rw [← made]
    exact cycle_bypass_alike toldAlike_agreesSince engine agreeHost takesAlike_agreesSince
  rcases cycle_eq_bypass_or_intercepts (H := BufferedHost) engine with
    same | ⟨instruction, intercepts⟩
  · obtain ⟨nextHost, agreeNext, cycled⟩ := bypassed agree
    exact ⟨nextHost, agreeNext, .direct ((same stopped).trans cycled)⟩
  · obtain ⟨nextHost, agreeNext, cycled⟩ := bypassed (agree.announce_breaking engine instruction)
    exact ⟨nextHost, agreeNext, .intercepted intercepts cycled⟩

/-- The rest of a run without breakpoints and the rest of the same run past all breakpoints. -/
theorem passesTo_of_resume (earlier : Array TraceEvent) (fuel : Nat) :
    ∀ {engine plainLast : Engine} {plain stopped plainHost : BufferedHost} {count total : Nat}
      {outcome : Outcome},
      engine.config.stepLimit = none →
      AgreesSince earlier plain stopped →
      engine.clearBreakpoints.resume plain count fuel =
        ⟨some outcome, total, plainLast, plainHost⟩ →
      ∃ stoppedHost, AgreesSince earlier plainHost stoppedHost ∧
        PassesTo engine stopped count fuel
          ⟨some outcome, total, plainLast.withBreakpoints engine.breakpoints, stoppedHost⟩ := by
  induction fuel with
  | zero =>
      intro engine plainLast plain stopped plainHost count total outcome _ _ ends
      simp [resume] at ends
  | succ fuel inductionHypothesis =>
      intro engine plainLast plain stopped plainHost count total outcome unlimited agree ends
      rw [resume_clearBreakpoints engine plain count fuel unlimited] at ends
      have settings := settings_cycle engine plain true
      have passing := cycle_bypass_not_breakpoint engine plain
      rcases made : engine.cycle plain true with ⟨cycleOutcome, next, plainNext⟩
      rw [made] at ends settings passing
      obtain ⟨configKept, breakpointsKept⟩ := settings
      obtain ⟨nextHost, agreeNext, cycled⟩ := exists_passesCycle agree made
      simp only at configKept breakpointsKept
      rw [← breakpointsKept]
      by_cases completed : cycleOutcome = .completed
      · subst completed
        have stepped := le_steps_resume next.clearBreakpoints plainNext (count + 1) fuel
        simp only [ends] at stepped
        have nextUnlimited : next.config.stepLimit = none := by rw [configKept, unlimited]
        obtain ⟨stoppedHost, agreeLast, goesOn⟩ := inductionHypothesis nextUnlimited agreeNext ends
        exact ⟨stoppedHost, agreeLast, passesTo_of_completed unlimited cycled stepped goesOn⟩
      · have ended : plainHost = plainNext ∧ outcome = cycleOutcome ∧ total = count ∧
            plainLast = next.clearBreakpoints := by
          cases cycleOutcome with
          | completed => contradiction
          | suspended _ | halted _ _ => cases ends; exact ⟨rfl, rfl, rfl, rfl⟩
        obtain ⟨rfl, rfl, rfl, rfl⟩ := ended
        exact ⟨nextHost, agreeNext, passesTo_of_stopped unlimited cycled completed passing⟩

/-- Whoever steps past every breakpoint that is hit gets to the end of the run without breakpoints:
the same engine, output and remaining input after as many steps, and a trace that differs by the
events of the breakpoints alone. -/
theorem exists_runPast_of_run_clearBreakpoints {engine plainLast : Engine}
    {host plainHost : BufferedHost} {fuel total : Nat} {outcome : Outcome}
    (unlimited : engine.config.stepLimit = none)
    (ends : engine.clearBreakpoints.run host fuel =
      ⟨some outcome, total, plainLast, plainHost⟩) :
    ∃ stoppedHost events,
      (∀ rounds budget, total ≤ rounds → fuel ≤ budget →
        engine.runPast host budget rounds =
          ⟨some outcome, total, plainLast.withBreakpoints engine.breakpoints, stoppedHost⟩) ∧
      stoppedHost.output = plainHost.output ∧
      stoppedHost.input = plainHost.input ∧
      stoppedHost.trace = host.trace ++ events ∧
      plainHost.trace = host.trace ++ events.filter fun event => !event.breaking := by
  obtain ⟨stoppedHost, agree, passes⟩ :=
    passesTo_of_resume host.trace fuel unlimited (agreesSince_refl host) ends
  obtain ⟨events, stoppedTrace, plainTrace⟩ := agree.trace
  refine ⟨stoppedHost, events, ?_, agree.output, agree.input, stoppedTrace, plainTrace⟩
  intro rounds budget enough budgetEnough
  have allowed : total ≤ 0 + rounds := by omega
  exact passes rounds 0 0 budget budget allowed rfl budgetEnough budgetEnough

/-- Prints `a` and reads a code, with a breakpoint on either instruction. -/
def printThenRead : Engine :=
  (fresh (.ofList [19, 97, 20, 32768, 0]) .standard).withBreakpoints (.ofList [0, 2])

/-- Both breakpoints are passed before the program waits for input. -/
theorem exists_runPast_of_printThenRead :
    (printThenRead.clearBreakpoints.run (start true) 2).outcome? =
        some (.suspended .needsInput) ∧
      ∃ stoppedHost events,
        (∀ rounds budget, 1 ≤ rounds → 2 ≤ budget →
          printThenRead.runPast (start true) budget rounds =
            ⟨some (.suspended .needsInput), 1,
              (printThenRead.clearBreakpoints.run (start true) 2).engine.withBreakpoints
                printThenRead.breakpoints, stoppedHost⟩) ∧
        stoppedHost.output = #[97] ∧
        stoppedHost.input = .empty ∧
        stoppedHost.trace = (start true).trace ++ events ∧
        (printThenRead.clearBreakpoints.run (start true) 2).host.trace =
          (start true).trace ++ events.filter fun event => !event.breaking := by
  have ends : printThenRead.clearBreakpoints.run (start true) 2 =
      ⟨some (.suspended .needsInput), 1,
        (printThenRead.clearBreakpoints.run (start true) 2).engine,
        (printThenRead.clearBreakpoints.run (start true) 2).host⟩ := rfl
  exact ⟨rfl, exists_runPast_of_run_clearBreakpoints rfl ends⟩

end Engine

end RegisterMachine
