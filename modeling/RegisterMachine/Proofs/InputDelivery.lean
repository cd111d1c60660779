import RegisterMachine.Proofs.HostSimulation

/-!
Contract: input may arrive in any pieces.

An `in` that finds no input leaves everything as it was, so a run that is fed
one piece of input after the other, whenever it asks for more, computes what a
run computes that has all pieces from the start.

Owns: `runFed`, and its agreement with a run that has all input.
Does not own: where input comes from (`Session`).
-/

namespace RegisterMachine

namespace BufferedHost

/-- Queues codes behind the pending input. -/
def supply (host : BufferedHost) (codes : List Word) : BufferedHost :=
  { host with input := host.input.pushCodes codes }

/-- The second host has printed the same, and `later` is still missing from the first one's input. -/
structure Ahead (later : List Word) (fed whole : BufferedHost) : Prop where
  pending : fed.input.pending ++ later = whole.input.pending
  output : fed.output = whole.output

variable {later : List Word} {fed whole : BufferedHost}

theorem ahead_foldl_supply (host : BufferedHost) (chunks : List (List Word)) :
    Ahead chunks.flatten host (chunks.foldl supply host) := by
  induction chunks generalizing host with
  | nil => exact ⟨List.append_nil _, rfl⟩
  | cons chunk later inductionHypothesis =>
      obtain ⟨pending, output⟩ := inductionHypothesis (host.supply chunk)
      refine ⟨?_, output⟩
      rw [List.foldl_cons, ← pending, List.flatten_cons]
      exact (List.append_assoc host.input.pending chunk later.flatten).symm

theorem ahead_supply {chunk : List Word} (ahead : Ahead (chunk ++ later) fed whole) :
    Ahead later (fed.supply chunk) whole := by
  refine ⟨?_, ahead.output⟩
  rw [← ahead.pending]
  exact List.append_assoc fed.input.pending chunk later

theorem toldAlike_ahead : ToldAlike (Ahead later) where
  emit := by
    intro fed whole code ahead
    refine ⟨ahead.pending, ?_⟩
    simp only [Host.emit, ahead.output]
  observe := by
    intro fed whole event _ ahead
    constructor
    · rw [input_observe, input_observe, ahead.pending]
    · rw [output_observe, output_observe, ahead.output]

/-- A host that has input left, or lacks none, hands out what the host with all input does. -/
theorem takesAlike_ahead (ahead : Ahead later fed whole)
    (served : fed.input.pending ≠ [] ∨ later = []) : TakesAlike (Ahead later) fed whole := by
  cases waiting : fed.input.pending with
  | nil =>
      have nothingLater : later = [] := served.resolve_left fun some => some waiting
      have wholeEmpty : whole.input.pending = [] := by
        rw [← ahead.pending, waiting, nothingLater, List.append_nil]
      exact .exhausted (take?_of_pending_nil waiting) (take?_of_pending_nil wholeEmpty)
  | cons code rest =>
      have wholeWaiting : whole.input.pending = code :: (rest ++ later) := by
        rw [← ahead.pending, waiting, List.cons_append]
      exact .supplied (take?_of_pending_cons waiting) (take?_of_pending_cons wholeWaiting)
        ⟨rfl, ahead.output⟩

end BufferedHost

namespace Engine

open BufferedHost

/-! ## One cycle with and without all input -/

variable {later : List Word} {fed whole : BufferedHost}

theorem ahead_announce (tracing : Bool) (instruction : Instruction) (registers : RegisterFile)
    (breaking : Bool) (ahead : Ahead later fed whole) :
    Ahead later (announce tracing fed instruction registers breaking)
      (announce tracing whole instruction registers breaking) := by
  constructor
  · rw [input_announce, input_announce, ahead.pending]
  · rw [output_announce, output_announce, ahead.output]

/-- A host that has paused at an `in` is still as far ahead as it was. -/
theorem ahead_paused (tracing : Bool) (instruction : Instruction) (registers : RegisterFile)
    (breaking : Bool) (ahead : Ahead later fed whole) :
    Ahead later (announce tracing fed instruction registers breaking) whole := by
  constructor
  · rw [input_announce, ahead.pending]
  · rw [output_announce, ahead.output]

theorem handle_ahead (engine : Engine) (instruction : Instruction)
    (ahead : Ahead later fed whole)
    (served : (engine.handle fed false instruction).outcome ≠ .suspended .needsInput ∨ later = []) :
    (engine.handle fed false instruction).Alike (Ahead later)
      (engine.handle whole false instruction) := by
  unfold handle at served ⊢
  simp only [Bool.not_false, Bool.true_and] at served ⊢
  cases breaking : engine.breakpoints.contains instruction.address with
  | true => exact ⟨rfl, rfl, ahead_announce _ instruction _ true ahead⟩
  | false =>
      have announced :=
        ahead_announce engine.config.tracing instruction engine.machine.registers false ahead
      simp only [breaking, Bool.false_eq_true, if_false, perform_eq_conclude] at served ⊢
      apply conclude_alike
      apply execute_alike toldAlike_ahead.emit instruction engine.machine announced
      intro reads
      apply takesAlike_ahead announced
      refine served.imp_left ?_
      intro settled empty
      apply settled
      rw [execute_of_exhausted engine.machine reads (take?_of_pending_nil empty)]
      rfl

/-- A cycle ends as it would with all input, unless it wants input that comes later. -/
theorem cycle_ahead (engine : Engine) (ahead : Ahead later fed whole)
    (served : (engine.cycle fed false).outcome ≠ .suspended .needsInput ∨ later = []) :
    (engine.cycle fed false).Alike (Ahead later) (engine.cycle whole false) := by
  cases engine.cycleStart with
  | halted _ cycles | stops _ _ _ cycles =>
      rw [cycles, cycles]
      exact ⟨rfl, rfl, ahead⟩
  | @fetches instruction _ _ cycles =>
      rw [cycles] at served ⊢
      rw [cycles]
      exact handle_ahead _ instruction ahead served

/-! ## Whole runs -/

/-- Goes on after a run. As long as chunks of input are left, a run that wants input is given the
next chunk and followed by another run. The chunks that were not needed are left over. -/
def feed (fuel : Nat) : (chunks : List (List Word)) → (steps : Nat) → Run BufferedHost →
    Run BufferedHost × List (List Word)
  | chunk :: later, steps, ⟨some (.suspended .needsInput), done, engine, host⟩ =>
      feed fuel later (steps + done) (engine.run (host.supply chunk) fuel)
  | chunks, steps, ⟨outcome?, done, engine, host⟩ =>
      (⟨outcome?, steps + done, engine, host⟩, chunks)

/-- Runs, and is fed one chunk of input after the other. -/
def runFed (engine : Engine) (host : BufferedHost) (fuel : Nat) (chunks : List (List Word)) :
    Run BufferedHost × List (List Word) :=
  feed fuel chunks 0 (engine.run host fuel)

theorem feed_of_settled (fuel : Nat) (chunks : List (List Word)) (steps done : Nat)
    {outcome : Outcome} (engine : Engine) (host : BufferedHost)
    (served : outcome ≠ .suspended .needsInput ∨ chunks = []) :
    feed fuel chunks steps ⟨some outcome, done, engine, host⟩ =
      (⟨some outcome, steps + done, engine, host⟩, chunks) := by
  cases chunks with
  | nil => rfl
  | cons chunk later =>
      have settled : outcome ≠ .suspended .needsInput := served.resolve_right nofun
      cases outcome with
      | completed => rfl
      | halted _ _ => rfl
      | suspended cause =>
          cases cause with
          | needsInput => contradiction
          | breakpoint _ => rfl

/-- From here on, feeding leads to this end, however many steps belong to earlier runs and whatever
fuel there is from `fuel` on. -/
def FeedsTo (engine : Engine) (chunks : List (List Word)) (host : BufferedHost) (count fuel : Nat)
    (final : Run BufferedHost × List (List Word)) : Prop :=
  ∀ steps done remaining budget, steps + done = count → fuel ≤ remaining → fuel ≤ budget →
    feed budget chunks steps (engine.resume host done remaining) = final

theorem feedsTo_of_completed {engine next : Engine} {chunks : List (List Word)}
    {host nextHost : BufferedHost} {count fuel : Nat}
    {final : Run BufferedHost × List (List Word)} (unlimited : engine.config.stepLimit = none)
    (completed : engine.cycle host false = ⟨.completed, next, nextHost⟩)
    (goesOn : FeedsTo next chunks nextHost (count + 1) fuel final) :
    FeedsTo engine chunks host count (fuel + 1) final := by
  intro steps done remaining budget counted enough budgetEnough
  obtain ⟨remaining, rfl⟩ := Nat.exists_eq_succ_of_ne_zero (Nat.ne_zero_of_lt enough)
  rw [resume_of_completed done remaining unlimited completed]
  exact goesOn steps (done + 1) remaining budget (by omega) (by omega) (by omega)

theorem feedsTo_of_settled {engine last : Engine} {chunks : List (List Word)}
    {host lastHost : BufferedHost} {outcome : Outcome} {count fuel : Nat}
    (unlimited : engine.config.stepLimit = none)
    (settled : engine.cycle host false = ⟨outcome, last, lastHost⟩)
    (incomplete : outcome ≠ .completed)
    (served : outcome ≠ .suspended .needsInput ∨ chunks = []) :
    FeedsTo engine chunks host count (fuel + 1) (⟨some outcome, count, last, lastHost⟩, chunks) := by
  intro steps done remaining budget counted enough _
  obtain ⟨remaining, rfl⟩ := Nat.exists_eq_succ_of_ne_zero (Nat.ne_zero_of_lt enough)
  rw [resume_of_stopped done remaining unlimited settled incomplete,
    feed_of_settled budget chunks steps done last lastHost served, counted]

theorem feedsTo_of_wanting {engine : Engine} {instruction : Instruction} {chunk : List Word}
    {later : List (List Word)} {host waiting : BufferedHost} {count fuel : Nat}
    {final : Run BufferedHost × List (List Word)} (unlimited : engine.config.stepLimit = none)
    (counter : engine.machine.pc = some instruction.address)
    (paused : engine.cycle host false =
      ⟨.suspended .needsInput, { engine with suspension := some .needsInput }, waiting⟩)
    (goesOn : FeedsTo engine later (waiting.supply chunk) count (fuel + 1) final) :
    FeedsTo engine (chunk :: later) host count (fuel + 1) final := by
  intro steps done remaining budget counted enough budgetEnough
  obtain ⟨remaining, rfl⟩ := Nat.exists_eq_succ_of_ne_zero (Nat.ne_zero_of_lt enough)
  obtain ⟨budget, rfl⟩ := Nat.exists_eq_succ_of_ne_zero (Nat.ne_zero_of_lt budgetEnough)
  rw [resume_of_stopped done remaining unlimited paused nofun]
  unfold feed run
  rw [resume_forgets_suspension engine _ _ 0 budget unlimited counter]
  exact goesOn (steps + done) 0 (budget + 1) (budget + 1) counted budgetEnough budgetEnough

/-- With this much fuel, the rest of a run that has all input and the rest of the same run that is
still to be fed lead to the same end. -/
def FeedsAlike (fuel : Nat) : Prop :=
  ∀ {engine last : Engine} {chunks : List (List Word)} {fed whole wholeHost : BufferedHost}
    {count total : Nat} {outcome : Outcome},
    engine.config.stepLimit = none →
    Ahead chunks.flatten fed whole →
    engine.resume whole count fuel = ⟨some outcome, total, last, wholeHost⟩ →
    ∃ fedHost left, Ahead left.flatten fedHost wholeHost ∧
      FeedsTo engine chunks fed count fuel (⟨some outcome, total, last, fedHost⟩, left)

/-- As long as no chunk is needed, both runs make the same cycle. -/
theorem exists_feedsTo_of_served {engine last : Engine} {chunks : List (List Word)}
    {fed whole wholeHost : BufferedHost} {count fuel total : Nat} {outcome : Outcome}
    (later : FeedsAlike fuel) (unlimited : engine.config.stepLimit = none)
    (ahead : Ahead chunks.flatten fed whole)
    (served : (engine.cycle fed false).outcome ≠ .suspended .needsInput ∨ chunks = [])
    (ends : engine.resume whole count (fuel + 1) = ⟨some outcome, total, last, wholeHost⟩) :
    ∃ fedHost left, Ahead left.flatten fedHost wholeHost ∧
      FeedsTo engine chunks fed count (fuel + 1) (⟨some outcome, total, last, fedHost⟩, left) := by
  have alike :=
    cycle_ahead engine ahead (served.imp_right fun none => congrArg List.flatten none)
  have settings := settings_cycle engine fed false
  rcases fedCycle : engine.cycle fed false with ⟨cycleOutcome, next, fedNext⟩
  rw [fedCycle] at alike settings served
  obtain ⟨wholeNext, aheadNext, wholeCycle⟩ := Progress.exists_eq_of_alike alike
  by_cases completed : cycleOutcome = .completed
  · subst completed
    rw [resume_of_completed count fuel unlimited wholeCycle] at ends
    have nextUnlimited : next.config.stepLimit = none := by rw [settings.1, unlimited]
    obtain ⟨fedHost, left, aheadLast, goesOn⟩ := later nextUnlimited aheadNext ends
    exact ⟨fedHost, left, aheadLast, feedsTo_of_completed unlimited fedCycle goesOn⟩
  · rw [resume_of_stopped count fuel unlimited wholeCycle completed] at ends
    cases ends
    exact ⟨fedNext, chunks, aheadNext, feedsTo_of_settled unlimited fedCycle completed served⟩

/-- The induction is on the fuel of the run that has all input. A chunk that is needed uses up none
of it, so within a step the chunks are taken one by one. -/
theorem feedsAlike (fuel : Nat) : FeedsAlike fuel := by
  induction fuel with
  | zero =>
      intro engine last chunks fed whole wholeHost count total outcome _ _ ends
      simp [resume] at ends
  | succ fuel inductionHypothesis =>
      intro engine last chunks fed whole wholeHost count total outcome unlimited ahead ends
      induction chunks generalizing fed with
      | nil =>
          exact exists_feedsTo_of_served inductionHypothesis unlimited ahead (.inr rfl) ends
      | cons chunk later feedHypothesis =>
          by_cases wants : (engine.cycle fed false).outcome = .suspended .needsInput
          · obtain ⟨instruction, counter, paused⟩ := cycle_of_needsInput wants
            have pausedAhead := ahead_paused engine.config.tracing instruction
              engine.machine.registers false ahead
            obtain ⟨fedHost, left, aheadLast, goesOn⟩ := feedHypothesis (ahead_supply pausedAhead)
            exact ⟨fedHost, left, aheadLast,
              feedsTo_of_wanting unlimited counter paused goesOn⟩
          · exact exists_feedsTo_of_served inductionHypothesis unlimited ahead (.inl wants) ends

/-- A run that is fed its input in chunks ends where the run ends that has all of it from the
start: with the same outcome, engine, output and number of steps, and the input that is left there
is what is left here with the chunks that were not needed. -/
theorem exists_runFed_of_run_supplied {engine last : Engine} {host wholeHost : BufferedHost}
    {chunks : List (List Word)} {fuel total : Nat} {outcome : Outcome}
    (unlimited : engine.config.stepLimit = none)
    (ends : engine.run (chunks.foldl supply host) fuel =
      ⟨some outcome, total, last, wholeHost⟩) :
    ∃ fedHost left,
      (∀ budget, fuel ≤ budget →
        engine.runFed host budget chunks = (⟨some outcome, total, last, fedHost⟩, left)) ∧
      fedHost.output = wholeHost.output ∧
      fedHost.input.pending ++ left.flatten = wholeHost.input.pending := by
  obtain ⟨fedHost, left, ahead, feeds⟩ :=
    feedsAlike fuel unlimited (ahead_foldl_supply host chunks) ends
  refine ⟨fedHost, left, ?_, ahead.output, ahead.pending⟩
  intro budget enough
  exact feeds 0 0 budget budget rfl enough enough

/-- Prints every code that it reads. -/
def echo : Engine := fresh (.ofList [20, 32768, 19, 32768, 6, 0]) .standard

theorem exists_runFed_of_echo :
    (echo.run ([[104], [], [105]].foldl supply (start false)) 7).outcome? =
        some (.suspended .needsInput) ∧
      ∃ fedHost left,
        (∀ budget, 7 ≤ budget →
          echo.runFed (start false) budget [[104], [], [105]] =
            (⟨some (.suspended .needsInput), 6,
              (echo.run ([[104], [], [105]].foldl supply (start false)) 7).engine, fedHost⟩,
              left)) ∧
        fedHost.output = #[104, 105] ∧
        fedHost.input.pending ++ left.flatten = [] := by
  have ends : echo.run ([[104], [], [105]].foldl supply (start false)) 7 =
      ⟨some (.suspended .needsInput), 6,
        (echo.run ([[104], [], [105]].foldl supply (start false)) 7).engine,
        (echo.run ([[104], [], [105]].foldl supply (start false)) 7).host⟩ := rfl
  exact ⟨rfl, exists_runFed_of_run_supplied rfl ends⟩

end Engine

end RegisterMachine
