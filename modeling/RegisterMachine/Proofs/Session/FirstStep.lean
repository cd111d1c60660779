import RegisterMachine.Proofs.Session.ExitStatus

/-!
Contract: a first step past a breakpoint neither costs nor gains a step.

A session that is to continue makes its first step without regard to
breakpoints, and the rest of its run under a limit that is lower by one. A run
under the limit itself makes the same cycles and counts one step more, unless a
breakpoint stands where it starts. If no step is allowed, none is made in either
way. So the two sessions have the same result, and both respect the limit.

Owns: `Engine.withLimit`, runs under a lower limit, `Session.EndsWith`.
Does not own: what a session that goes on from a breakpoint does
(`Proofs.Session.Resumption`).
-/

namespace RegisterMachine

namespace Engine

/-- The same engine under another step limit. -/
def withLimit (engine : Engine) (stepLimit : Option Nat) : Engine :=
  { engine with config := { engine.config with stepLimit } }

theorem withLimit_eq_self {engine : Engine} {limit : Option Nat}
    (same : engine.config.stepLimit = limit) : engine.withLimit limit = engine := by
  subst same
  rfl

/-! ## A limit that is lower by one -/

section
variable {H : Type}

theorem conclude_withLimit (engine : Engine) (limit : Option Nat) (instruction : Instruction)
    (execution : Execution H) :
    (engine.withLimit limit).conclude instruction execution =
      (engine.conclude instruction execution).mapEngine (·.withLimit limit) := by
  unfold conclude
  split <;> rfl

variable [Host H]

theorem handle_withLimit (engine : Engine) (limit : Option Nat) (host : H) (bypass : Bool)
    (instruction : Instruction) :
    (engine.withLimit limit).handle host bypass instruction =
      (engine.handle host bypass instruction).mapEngine (·.withLimit limit) := by
  have kept : (engine.withLimit limit).breakpoints = engine.breakpoints := rfl
  unfold handle
  simp only [kept]
  split
  · rfl
  · exact conclude_withLimit engine limit instruction _

/-- A cycle does not look at the step limit. -/
theorem cycle_withLimit (engine : Engine) (limit : Option Nat) (host : H) (bypass : Bool) :
    (engine.withLimit limit).cycle host bypass =
      (engine.cycle host bypass).mapEngine (·.withLimit limit) := by
  have same : (engine.withLimit limit).machine = engine.machine := rfl
  unfold cycle
  rw [same]
  cases engine.machine.pc with
  | none => rfl
  | some pc =>
      simp only
      cases decode engine.machine.memory pc with
      | endOfProgram => rfl
      | fault fault => rfl
      | instruction instruction =>
          exact handle_withLimit { engine with suspension := none } limit host bypass instruction

/-- A limit and the one that is lower by one are reached one step apart. -/
theorem limitReached_withLimit {limit : Option Nat} (stepsAllowed : limit ≠ some 0)
    (engine : Engine) (steps : Nat) :
    (engine.withLimit limit).limitReached (steps + 1) =
      (engine.withLimit (limit.map (· - 1))).limitReached steps := by
  cases limit with
  | none => rfl
  | some most =>
      have positive : most ≠ 0 := fun zero => stepsAllowed (congrArg some zero)
      have apart : most ≤ steps + 1 ↔ most - 1 ≤ steps := by omega
      exact decide_eq_decide.mpr apart

theorem limitReached_withLimit_zero {limit : Option Nat} (stepsAllowed : limit ≠ some 0)
    (engine : Engine) : (engine.withLimit limit).limitReached 0 = false := by
  cases limit with
  | none => rfl
  | some most =>
      have positive : most ≠ 0 := fun zero => stepsAllowed (congrArg some zero)
      exact decide_eq_false (by omega)

/-- The rest of a run is the same under the lower limit if it is counted from one step earlier. -/
theorem resume_withLimit {limit : Option Nat} (stepsAllowed : limit ≠ some 0) (engine : Engine)
    (host : H) (steps fuel : Nat) :
    ({ (engine.withLimit (limit.map (· - 1))).resume host steps fuel with
        steps := ((engine.withLimit (limit.map (· - 1))).resume host steps fuel).steps + 1 } :
      Run H) =
      ((engine.withLimit limit).resume host (steps + 1) fuel).mapEngine
        (·.withLimit (limit.map (· - 1))) := by
  induction fuel generalizing engine host steps with
  | zero => rfl
  | succ fuel inductionHypothesis =>
      -- Both runs make the same cycle; they only count from different numbers to different limits.
      rw [resume, resume, limitReached_withLimit stepsAllowed, cycle_withLimit, cycle_withLimit]
      cases (engine.withLimit (limit.map (· - 1))).limitReached steps with
      | true => rfl
      | false =>
          rcases engine.cycle host false with ⟨outcome, next, nextHost⟩
          cases outcome with
          | completed => exact inductionHypothesis next nextHost (steps + 1)
          | suspended _ | halted _ _ => rfl

/-! ## Limits that are respected -/

/-- A run that stopped in this way has respected the limit: it has used it up exactly if it was
completed, and without a limit it was not completed. -/
def Respects (limit : Option Nat) (steps : Nat) (stop : Outcome) : Prop :=
  match limit with
  | some most => steps ≤ most ∧ (stop = .completed ↔ steps = most)
  | none => stop ≠ .completed

theorem respects_run {engine last : Engine} {host lastHost : H} {fuel steps : Nat} {stop : Outcome}
    (ended : engine.run host fuel = ⟨some stop, steps, last, lastHost⟩) :
    Respects engine.config.stepLimit steps stop := by
  cases limited : engine.config.stepLimit with
  | none => exact incomplete_of_run limited ended
  | some most =>
      show steps ≤ most ∧ (stop = .completed ↔ steps = most)
      cases (run_eq_iff.mp ended).2 with
      | limited _ before reached =>
          rw [limitReached_of_limit limited, Nat.zero_add] at reached
          have atLeast := of_decide_eq_true reached
          have atMost : steps ≤ most := by
            apply Nat.le_of_not_lt
            intro above
            have free := before most above
            rw [limitReached_of_limit limited, Nat.zero_add] at free
            exact of_decide_eq_false free (Nat.le_refl most)
          exact ⟨atMost, fun _ => by omega, fun _ => rfl⟩
      | stopped _ free _ incomplete =>
          rw [limitReached_of_limit limited, Nat.zero_add] at free
          have below := of_decide_eq_false free
          exact ⟨by omega, fun completed => absurd completed incomplete, fun _ => by omega⟩

end

theorem respects_zero {limit : Option Nat} {stop : Outcome} (stepsAllowed : limit ≠ some 0)
    (incomplete : stop ≠ .completed) : Respects limit 0 stop := by
  cases limit with
  | none => exact incomplete
  | some most =>
      refine ⟨Nat.zero_le most, fun completed => absurd completed incomplete, ?_⟩
      rintro rfl
      exact absurd rfl stepsAllowed

/-- A step before a run that respects the lower limit. -/
theorem respects_succ {limit : Option Nat} {steps : Nat} {stop : Outcome}
    (stepsAllowed : limit ≠ some 0) (respects : Respects (limit.map (· - 1)) steps stop) :
    Respects limit (steps + 1) stop := by
  cases limit with
  | none => exact respects
  | some most =>
      have positive : most ≠ 0 := fun zero => stepsAllowed (congrArg some zero)
      obtain ⟨atMost, completed⟩ :
        steps ≤ most - 1 ∧ (stop = .completed ↔ steps = most - 1) := respects
      exact ⟨by omega, by rw [completed]; omega⟩

end Engine

namespace Session

open Engine

section
variable {H : Type} [Host H]

/-- A run that may begin with a step past a breakpoint, under a limit that counts this step. -/
theorem drive_withLimit {engine : Engine} {limit : Option Nat} (stepsAllowed : limit ≠ some 0)
    (free : ∀ instruction, ¬ engine.Intercepts instruction) (host : H) (fuel : Nat) :
    drive (engine.withLimit (limit.map (· - 1))) host true fuel =
      (drive (engine.withLimit limit) host false (fuel + 1)).mapEngine
        (·.withLimit (limit.map (· - 1))) := by
  have same : engine.cycle host false = engine.cycle host true := by
    rcases cycle_eq_bypass_or_intercepts (H := H) engine with same | ⟨instruction, intercepts⟩
    · exact same host
    · exact absurd intercepts (free instruction)
  have first : (engine.withLimit (limit.map (· - 1))).step host 0 =
      (engine.cycle host true).mapEngine (·.withLimit (limit.map (· - 1))) :=
    cycle_withLimit engine _ host true
  rw [drive, drive, if_pos rfl, if_neg Bool.false_ne_true, first, Engine.run, resume,
    limitReached_withLimit_zero stepsAllowed, cycle_withLimit, same]
  rcases engine.cycle host true with ⟨outcome, next, nextHost⟩
  cases outcome with
  | completed => exact resume_withLimit stepsAllowed next nextHost 0 fuel
  | suspended _ | halted _ _ => rfl

end

/-! ## Sessions -/

theorem Plan.bypasses_eq_true_iff {plan : Plan} :
    plan.bypasses = true ↔ plan.continueFirst = true ∧ plan.maxSteps ≠ some 0 := by
  simp [Plan.bypasses]

theorem Plan.bypasses_eq_false_iff {plan : Plan} :
    plan.bypasses = false ↔ plan.continueFirst = false ∨ plan.maxSteps = some 0 := by
  rw [← Bool.not_eq_true, bypasses_eq_true_iff, Decidable.not_and_iff_not_or_not, Bool.not_eq_true,
    ne_eq, Decidable.not_not]

/-- The same plan, but for whether its first step ignores breakpoints. -/
def Plan.continuing (plan : Plan) (wanted : Bool) : Plan := { plan with continueFirst := wanted }

section
variable {m : Type → Type} [Monad m] [Environment m]

theorem writeAll_continuing (plan : Plan) (wanted : Bool) (changes : List (Target × FileChange)) :
    (writeAll (plan.continuing wanted) changes : m (List (Except OutputError Unit))) =
      writeAll plan changes := by
  induction changes with
  | nil => rfl
  | cons first rest inductionHypothesis =>
      rw [writeAll, writeAll, inductionHypothesis]
      rfl

/-- A session concludes alike whether it was to continue or not. -/
theorem conclude_continuing (plan : Plan) (wanted : Bool) (run : Run Console) :
    (conclude (plan.continuing wanted) run : m (Except Error Report)) = conclude plan run := by
  unfold conclude
  simp only [writeAll_continuing plan]
  rfl

/-- What a session concludes does not show the step limit. -/
theorem conclude_mapEngine_withLimit (plan : Plan) (run : Run Console) (limit : Option Nat) :
    (conclude plan (run.mapEngine (·.withLimit limit)) : m (Except Error Report)) =
      conclude plan run := rfl

variable [LawfulMonad m]

/-- Loading leaves the step limit to the configuration. -/
theorem load_withLimit (program : String) (state : Option String) (config : EngineConfig)
    (limit : Option Nat) :
    (load program state { config with stepLimit := limit } : ExceptT Error m Engine) =
      (·.withLimit limit) <$> load program state config := by
  unfold load
  cases state with
  | none => simp only [map_bind, map_pure]; rfl
  | some path => simp only [map_bind, map_pure]; rfl

theorem setBreakpoints_withLimit (engine : Engine) (limit : Option Nat) (addresses : List Nat) :
    setBreakpoints (engine.withLimit limit) addresses =
      (setBreakpoints engine addresses).withLimit limit := by
  rw [setBreakpoints_eq, setBreakpoints_eq]
  rfl

/-- Preparing is the same for both plans, but for the limit that the engine gets. -/
theorem prepare_continuing (plan : Plan) (wanted : Bool) :
    (prepare (plan.continuing wanted) : ExceptT Error m (Engine × InputQueue)) =
      (fun prepared => (prepared.1.withLimit (plan.continuing wanted).stepLimit, prepared.2)) <$>
        prepare plan := by
  have config : (plan.continuing wanted).engineConfig =
      { plan.engineConfig with stepLimit := (plan.continuing wanted).stepLimit } := rfl
  unfold prepare
  rw [config, load_withLimit, bind_map_left, map_bind]
  refine bind_congr fun engine => ?_
  simp only [map_bind, map_pure, setBreakpoints_withLimit]
  rfl

end

variable {plan : Plan} {desk : Desk}

/-- Sessions of plans that continue or not prepare alike, and differ in the limit under which they
are driven. -/
theorem perform_run_continuing (wanted : Bool) (desk : Desk) (room : Option Nat) (fuel : Nat) :
    desk.perform (Session.run (plan.continuing wanted) room fuel) =
      match desk.perform (prepare plan).run with
      | (.error error, after) => (.error error, after)
      | (.ok (engine, input), ready) =>
          ready.perform (conclude plan
            (drive (engine.withLimit (plan.continuing wanted).stepLimit)
              (.start input plan.trace.isSome room) (plan.continuing wanted).bypasses fuel)) := by
  have prepared : desk.perform (prepare (plan.continuing wanted)).run =
      match desk.perform (prepare plan).run with
      | (.error error, after) => (.error error, after)
      | (.ok (engine, input), ready) =>
          (.ok (engine.withLimit (plan.continuing wanted).stepLimit, input), ready) := by
    rw [prepare_continuing, map_eq_pure_bind, perform_run_bind]
    rcases desk.perform (prepare plan).run with ⟨_ | ⟨_, _⟩, _⟩ <;> rfl
  rw [perform_run, prepared]
  rcases desk.perform (prepare plan).run with ⟨error | ⟨engine, input⟩, ready⟩
  · rfl
  · exact congrArg ready.perform (conclude_continuing plan wanted _)

/-! ## The result of a session -/

/-- The machine of the session starts at the address. -/
def StartsAt (plan : Plan) (desk : Desk) (address : Nat) : Prop :=
  ∃ engine input ready, Succeeds (prepare plan) desk (engine, input) ready ∧
    engine.machine.pc = some address

/-- The session comes to an end with this result, and leaves this desk behind. -/
def EndsWith (plan : Plan) (room : Option Nat) (desk : Desk) (result : Except Error Report)
    (after : Desk) : Prop :=
  result ≠ .error .unfinished ∧
    ∃ fuel, desk.perform (Session.run plan room fuel) = (result, after)

/-- If no breakpoint stands where the session starts, its first cycle is not intercepted. -/
theorem not_intercepts_of_starts {engine : Engine} {input : InputQueue} {ready : Desk}
    (prepared : Succeeds (prepare plan) desk (engine, input) ready)
    (free : ∀ address ∈ plan.breakpoints, ¬ StartsAt plan desk address)
    (instruction : Instruction) : ¬ engine.Intercepts instruction := by
  intro intercepts
  refine free instruction.address ?_ ⟨engine, input, ready, prepared, intercepts.counter⟩
  obtain ⟨supplies, _, rfl⟩ := exists_of_succeeds_prepare prepared
  have member := intercepts.member
  rw [supplies.engine_eq] at member
  exact Breakpoints.mem_ofList_iff.mp member

theorem endsWith_continuing_of_no_steps {room : Option Nat} {result : Except Error Report}
    {after : Desk} (noSteps : plan.maxSteps = some 0) :
    EndsWith (plan.continuing true) room desk result after ↔
      EndsWith (plan.continuing false) room desk result after := by
  have obeys : (plan.continuing true).bypasses = (plan.continuing false).bypasses := by
    simp [Plan.bypasses, Plan.continuing, noSteps]
  have limits : (plan.continuing true).stepLimit = (plan.continuing false).stepLimit := by
    rw [Plan.stepLimit, Plan.stepLimit, obeys]
    rfl
  simp only [EndsWith, perform_run_continuing, obeys, limits]

theorem endsWith_continuing_of_free {room : Option Nat} {result : Except Error Report}
    {after : Desk} (stepsAllowed : plan.maxSteps ≠ some 0)
    (free : ∀ address ∈ plan.breakpoints, ¬ StartsAt plan desk address) :
    EndsWith (plan.continuing true) room desk result after ↔
      EndsWith (plan.continuing false) room desk result after := by
  have bypasses : (plan.continuing true).bypasses = true := by
    simp [Plan.bypasses, Plan.continuing, stepsAllowed]
  have obeys : (plan.continuing false).bypasses = false := rfl
  have lower : (plan.continuing true).stepLimit = plan.maxSteps.map (· - 1) := by
    rw [Plan.stepLimit, bypasses]
    rfl
  have limit : (plan.continuing false).stepLimit = plan.maxSteps := rfl
  simp only [EndsWith, perform_run_continuing, bypasses, obeys, lower, limit]
  refine and_congr_right fun finished => ?_
  rcases prepared : desk.perform (prepare plan).run with ⟨error | ⟨engine, input⟩, ready⟩
  · rfl
  · have passes := not_intercepts_of_starts prepared free
    -- The step past breakpoints takes no fuel, so the other session needs one more.
    simp only [drive_withLimit stepsAllowed passes, conclude_mapEngine_withLimit]
    constructor
    · rintro ⟨fuel, ended⟩
      exact ⟨fuel + 1, ended⟩
    · rintro ⟨fuel, ended⟩
      cases fuel with
      | zero =>
          have unfinished := congrArg Prod.fst ended
          exact absurd unfinished.symm finished
      | succ fuel => exact ⟨fuel, ended⟩

/-- The limit of the plan is respected, whether or not the first step is taken under another one. -/
theorem respects_drive {H : Type} [Host H] {engine : Engine} {host : H} {fuel : Nat}
    {stop : Outcome} (config : engine.config = plan.engineConfig)
    (ended : (drive engine host plan.bypasses fuel).outcome? = some stop) :
    Respects plan.maxSteps (drive engine host plan.bypasses fuel).steps stop := by
  have limit : engine.config.stepLimit = plan.stepLimit := by rw [config, Plan.engineConfig]
  have driven := drives engine host plan.bypasses fuel
  generalize drive engine host plan.bypasses fuel = run at driven ended ⊢
  generalize bypasses : plan.bypasses = bypass at driven
  rw [Plan.stepLimit, bypasses] at limit
  cases driven with
  | obeys =>
      rcases ran : engine.run host fuel with ⟨outcome?, steps, last, lastHost⟩
      rw [ran] at ended
      cases ended
      rw [← show engine.config.stepLimit = plan.maxSteps from limit]
      exact respects_run ran
  | @goesOn next nextHost cycled =>
      have kept := (settings_cycle engine host true).1
      rw [cycled] at kept
      rcases ran : next.run nextHost fuel with ⟨outcome?, steps, last, lastHost⟩
      simp only [ran] at ended ⊢
      cases ended
      refine respects_succ (Plan.bypasses_eq_true_iff.mp bypasses).2 ?_
      rw [← show engine.config.stepLimit = plan.maxSteps.map (· - 1) from limit, ← kept]
      exact respects_run ran
  | ended cycled incomplete =>
      cases ended
      exact respects_zero (Plan.bypasses_eq_true_iff.mp bypasses).2 incomplete

/-- To continue makes a difference only where a breakpoint stands at the start, and the first step
counts: without such a breakpoint, and also if no step is allowed, the session comes to the same
result as without continuing, and leaves the same desk behind. In either way its steps respect the
limit. -/
theorem continuing_only_skips_first_breakpoint (plan : Plan) (desk : Desk) (room : Option Nat) :
    (plan.maxSteps = some 0 ∨ (∀ address ∈ plan.breakpoints, ¬ StartsAt plan desk address) →
      ∀ result after, EndsWith (plan.continuing true) room desk result after ↔
        EndsWith (plan.continuing false) room desk result after) ∧
    ∀ report after, EndsWith plan room desk (.ok report) after →
      Respects plan.maxSteps report.steps report.stop := by
  refine ⟨?_, ?_⟩
  · intro skipsNothing result after
    by_cases noSteps : plan.maxSteps = some 0
    · exact endsWith_continuing_of_no_steps noSteps
    · exact endsWith_continuing_of_free noSteps (skipsNothing.resolve_left noSteps)
  · rintro report after ⟨_, fuel, ended⟩
    obtain ⟨supplies, input, ready, stop, _, _, stopped, rfl⟩ := exists_drive_of_run ended
    exact respects_drive (supplies.config_engine plan) stopped

/-- Does nothing and goes on from a breakpoint, with one step allowed. -/
def idlePlan : Plan :=
  { Plan.plain "idle" with breakpoints := [1], maxSteps := some 1, log := some "log" }

def idleDesk : Desk := .start ⟨[("idle", [21, 0, 21, 0, 0, 0])]⟩ []

/-- The session starts in front of its breakpoint, and comes no further than to it. -/
theorem continuing_only_skips_first_breakpoint_of_idle :
    (∀ address ∈ idlePlan.breakpoints, ¬ StartsAt idlePlan idleDesk address) ∧
    EndsWith (idlePlan.continuing false) none idleDesk (.ok ⟨.completed, 1, 0, some 1, none⟩)
      (idleDesk.perform (Session.run (idlePlan.continuing false) none 2)).2 ∧
    EndsWith (idlePlan.continuing true) none idleDesk (.ok ⟨.completed, 1, 0, some 1, none⟩)
      (idleDesk.perform (Session.run (idlePlan.continuing false) none 2)).2 ∧
    Respects (some 1) 1 .completed := by
  have starts : ∀ address ∈ idlePlan.breakpoints, ¬ StartsAt idlePlan idleDesk address := by
    rintro address member ⟨engine, input, ready, prepared, counter⟩
    obtain ⟨⟨image, machine, text⟩, isMachine, rfl⟩ := exists_of_succeeds_prepare prepared
    cases isMachine
    cases List.mem_singleton.mp member
    cases counter
  have reported : (idleDesk.perform (Session.run (idlePlan.continuing false) none 2)).1 =
      .ok ⟨.completed, 1, 0, some 1, none⟩ :=
    Snapshot.toOption_eq_some_iff.mp (by decide +kernel)
  have succeeded := Prod.eta (idleDesk.perform (Session.run (idlePlan.continuing false) none 2))
  rw [reported] at succeeded
  have ends : EndsWith (idlePlan.continuing false) none idleDesk
      (.ok ⟨.completed, 1, 0, some 1, none⟩)
      (idleDesk.perform (Session.run (idlePlan.continuing false) none 2)).2 :=
    ⟨nofun, 2, succeeded.symm⟩
  exact ⟨starts, ends,
    ((continuing_only_skips_first_breakpoint idlePlan idleDesk none).1 (.inr starts) _ _).mpr ends,
    (continuing_only_skips_first_breakpoint (idlePlan.continuing false) idleDesk none).2 _ _ ends⟩

end Session

end RegisterMachine
