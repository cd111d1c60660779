import RegisterMachine.Proofs.HostSimulation
import RegisterMachine.Proofs.Stepping

/-!
Contract: a breakpoint stops a run at the first fetch of its address.

The engine without breakpoints tells where the run with breakpoints stops: after
the least number of completed cycles that lead to a program counter at which a
breakpoint stands and a complete instruction can be fetched. Nothing but the
host's having been told of that instruction distinguishes the stopped run from
the cycles before it, and a run that meets no such place is the run without
breakpoints.

Owns: `Engine.HitsAt`, `Engine.FirstHit`, and the runs that they foretell.
Does not own: going on after a stop (`Proofs.BreakpointPassing`).
-/

namespace RegisterMachine

namespace Engine

section
variable {H : Type} [Host H]

/-- After this many completed cycles without breakpoints, an instruction is fetched at the address,
and one of the engine's breakpoints stands there. -/
def HitsAt (engine : Engine) (host : H) (steps address : Nat) : Prop :=
  ∃ next nextHost instruction,
    engine.clearBreakpoints.Completes host steps next nextHost ∧
      next.machine.pc = some address ∧ address ∈ engine.breakpoints ∧
      decode next.machine.memory address = .instruction instruction

/-- The least number of cycles after which a breakpoint is hit, if the step limit lets a run get
that far. -/
structure FirstHit (engine : Engine) (host : H) (steps address : Nat) : Prop where
  allowed : ∀ limit, engine.config.stepLimit = some limit → steps < limit
  hits : engine.HitsAt host steps address
  least : ∀ earlier, earlier < steps → ∀ other, ¬ engine.HitsAt host earlier other

variable {engine next last : Engine} {host nextHost lastHost : H} {steps address : Nat}

theorem limitReached_eq_false_iff :
    engine.limitReached steps = false ↔
      ∀ limit, engine.config.stepLimit = some limit → steps < limit := by
  cases limited : engine.config.stepLimit with
  | none => exact ⟨fun _ _ => nofun, fun _ => limitReached_of_unlimited limited steps⟩
  | some most =>
      rw [limitReached_of_limit limited, decide_eq_false_iff_not, Nat.not_le]
      constructor
      · intro below limit isMost
        cases isMost
        exact below
      · intro below
        exact below most rfl

/-! ## Cycles that no breakpoint intercepts -/

/-- No breakpoint stands at the instruction that the next cycle fetches. -/
def Unhindered (engine : Engine) : Prop := ∀ instruction, ¬ engine.Intercepts instruction

theorem cycle_of_unhindered (unhindered : engine.Unhindered) (host : H) :
    engine.cycle host false =
      (engine.clearBreakpoints.cycle host false).mapEngine
        (·.withBreakpoints engine.breakpoints) := by
  have settings := (settings_cycle engine host true).2
  rcases cycle_eq_bypass_or_intercepts (H := H) engine with same | ⟨instruction, intercepts⟩
  · rw [same host, cycle_clearBreakpoints]
    rcases cycled : engine.cycle host true with ⟨outcome, ended, endedHost⟩
    rw [cycled] at settings
    simp only [Progress.mapEngine, withBreakpoints, ← settings]
  · exact absurd intercepts (unhindered instruction)

theorem unhindered_of_completed (completed : engine.cycle host false = ⟨.completed, next, nextHost⟩) :
    engine.Unhindered := by
  intro instruction intercepts
  rw [cycle_of_intercepts host intercepts] at completed
  cases completed

/-- A hit after no cycle at all is what keeps an engine from being unhindered. -/
theorem hitsAt_zero_iff :
    engine.HitsAt host 0 address ↔
      ∃ instruction, engine.Intercepts instruction ∧ instruction.address = address := by
  constructor
  · rintro ⟨next, nextHost, instruction, completes, counter, member, fetched⟩
    cases completes
    have isAddress := address_of_decode fetched
    subst isAddress
    exact ⟨instruction, ⟨counter, fetched, member⟩, rfl⟩
  · rintro ⟨instruction, ⟨counter, fetched, member⟩, rfl⟩
    exact ⟨_, _, instruction, completes_zero _ _, counter, member, fetched⟩

theorem unhindered_of_not_hitsAt (free : ∀ other, ¬ engine.HitsAt host 0 other) :
    engine.Unhindered :=
  fun instruction intercepts =>
    free instruction.address (hitsAt_zero_iff.mpr ⟨instruction, intercepts, rfl⟩)

/-- What is hit later is hit by the engine that the first cycles lead to. -/
theorem hitsAt_add {later : Nat} (breakpoints : next.breakpoints = engine.breakpoints)
    (completes : engine.clearBreakpoints.Completes host steps next.clearBreakpoints nextHost) :
    engine.HitsAt host (steps + later) address ↔ next.HitsAt nextHost later address := by
  unfold HitsAt Completes
  rw [completes.cycles_add, breakpoints]

theorem hitsAt_iff (breakpoints : next.breakpoints = engine.breakpoints)
    (completes : engine.clearBreakpoints.Completes host steps next.clearBreakpoints nextHost) :
    engine.HitsAt host steps address ↔
      ∃ instruction, next.Intercepts instruction ∧ instruction.address = address :=
  (hitsAt_add breakpoints completes).trans hitsAt_zero_iff

/-! ## Completed cycles with and without breakpoints -/

/-- An engine without breakpoints is what clearing leaves of it, whichever are set before. -/
theorem clearBreakpoints_withBreakpoints (free : engine.breakpoints = .empty)
    (breakpoints : Breakpoints) :
    (engine.withBreakpoints breakpoints).clearBreakpoints = engine := by
  show { engine with breakpoints := .empty } = engine
  rw [← free]

theorem clearBreakpoints_of_completed
    (completed : engine.cycle host false = ⟨.completed, next, nextHost⟩) :
    engine.clearBreakpoints.cycle host false = ⟨.completed, next.clearBreakpoints, nextHost⟩ := by
  have mapped := cycle_of_unhindered (unhindered_of_completed completed) host
  have settings := (settings_cycle engine.clearBreakpoints host false).2
  rw [completed] at mapped
  rcases plain : engine.clearBreakpoints.cycle host false with ⟨outcome, ended, endedHost⟩
  rw [plain] at mapped settings
  cases mapped
  rw [clearBreakpoints_withBreakpoints settings]

/-- Cycles are completed with breakpoints as they are without them, and no breakpoint is hit. -/
theorem Completes.clearBreakpoints (completes : engine.Completes host steps next nextHost) :
    engine.clearBreakpoints.Completes host steps next.clearBreakpoints nextHost ∧
      ∀ earlier, earlier < steps → ∀ other, ¬ engine.HitsAt host earlier other := by
  induction steps generalizing next nextHost with
  | zero =>
      cases completes
      exact ⟨rfl, nofun⟩
  | succ steps inductionHypothesis =>
      obtain ⟨middle, middleHost, before, cycled⟩ := completes_succ_last_iff.mp completes
      obtain ⟨plainBefore, free⟩ := inductionHypothesis before
      have plain := clearBreakpoints_of_completed cycled
      refine ⟨completes_succ_last_iff.mpr ⟨_, _, plainBefore, plain⟩, ?_⟩
      intro earlier below other hits
      rcases Nat.lt_succ_iff_lt_or_eq.mp below with isEarlier | isLast
      · exact free earlier isEarlier other hits
      · subst isLast
        obtain ⟨instruction, intercepts, _⟩ :=
          (hitsAt_iff before.settings.2 plainBefore).mp hits
        exact unhindered_of_completed cycled instruction intercepts

/-- As long as no breakpoint is hit, cycles are completed with breakpoints as without them. -/
theorem completes_of_clearBreakpoints
    (plain : engine.clearBreakpoints.Completes host steps next nextHost)
    (free : ∀ earlier, earlier < steps → ∀ other, ¬ engine.HitsAt host earlier other) :
    engine.Completes host steps (next.withBreakpoints engine.breakpoints) nextHost := by
  induction steps generalizing next nextHost with
  | zero =>
      cases plain
      rfl
  | succ steps inductionHypothesis =>
      obtain ⟨middle, middleHost, plainBefore, plainCycle⟩ := completes_succ_last_iff.mp plain
      have before := inductionHypothesis plainBefore fun earlier below =>
        free earlier (Nat.lt_succ_of_lt below)
      have cleared :=
        clearBreakpoints_withBreakpoints plainBefore.settings.2 engine.breakpoints
      have unhindered : (middle.withBreakpoints engine.breakpoints).Unhindered := by
        intro instruction intercepts
        have kept : (middle.withBreakpoints engine.breakpoints).breakpoints =
            engine.breakpoints := rfl
        rw [← cleared] at plainBefore
        exact free steps (Nat.lt_succ_self steps) instruction.address
          ((hitsAt_iff kept plainBefore).mpr ⟨instruction, intercepts, rfl⟩)
      have cycled := cycle_of_unhindered unhindered middleHost
      rw [cleared, plainCycle] at cycled
      exact completes_succ_last_iff.mpr ⟨_, _, before, cycled⟩

/-! ## Runs -/

theorem intercepts_of_breakpoint
    (paused : (engine.cycle host false).outcome = .suspended (.breakpoint address)) :
    ∃ instruction, engine.Intercepts instruction ∧ instruction.address = address := by
  rcases cycle_eq_bypass_or_intercepts (H := H) engine with same | ⟨instruction, intercepts⟩
  · rw [same host] at paused
    exact absurd paused (cycle_bypass_not_breakpoint engine host address)
  · rw [cycle_of_intercepts host intercepts] at paused
    cases paused
    exact ⟨instruction, intercepts, rfl⟩

theorem firstHit_of_run {fuel : Nat}
    (ended : engine.run host fuel =
      ⟨some (.suspended (.breakpoint address)), steps, last, lastHost⟩) :
    engine.FirstHit host steps address := by
  obtain ⟨_, ends⟩ := run_eq_iff.mp ended
  cases ends with
  | stopped completes allowed stops _ =>
      obtain ⟨plain, least⟩ := completes.clearBreakpoints
      rw [Nat.zero_add] at allowed
      refine ⟨limitReached_eq_false_iff.mp allowed, ?_, least⟩
      exact (hitsAt_iff completes.settings.2 plain).mpr (intercepts_of_breakpoint (by rw [stops]))

/-- At the first hit, the engine is the one without breakpoints after as many cycles, and the host
has been told of the instruction. -/
theorem run_of_firstHit (first : engine.FirstHit host steps address)
    (plain : engine.clearBreakpoints.Completes host steps next nextHost) {fuel : Nat}
    (enough : steps < fuel) :
    ∃ instruction, instruction.address = address ∧
      decode next.machine.memory address = .instruction instruction ∧
      engine.run host fuel =
        ⟨some (.suspended (.breakpoint address)), steps,
          { next with
            breakpoints := engine.breakpoints, suspension := some (.breakpoint address) },
          announce engine.config.tracing nextHost instruction next.machine.registers true⟩ := by
  obtain ⟨found, foundHost, instruction, again, counter, member, fetched⟩ := first.hits
  obtain ⟨rfl, rfl⟩ := plain.unique again
  have isAddress := address_of_decode fetched
  subst isAddress
  have completes := completes_of_clearBreakpoints plain first.least
  have intercepts : (found.withBreakpoints engine.breakpoints).Intercepts instruction :=
    ⟨counter, fetched, member⟩
  have paused := cycle_of_intercepts foundHost intercepts
  have config : found.config = engine.config := plain.settings.1
  refine ⟨instruction, rfl, fetched, ?_⟩
  refine run_eq_iff.mpr ⟨enough, .stopped completes ?_ ?_ nofun⟩
  · rw [Nat.zero_add]
    exact limitReached_eq_false_iff.mpr first.allowed
  · rw [paused, ← config]
    rfl

/-- The last thing that a run tells its host before it stops at a breakpoint. -/
theorem exists_announce_of_breakpoint {fuel : Nat}
    (ended : engine.run host fuel =
      ⟨some (.suspended (.breakpoint address)), steps, last, lastHost⟩) :
    ∃ earlier instruction registers,
      lastHost = announce engine.config.tracing earlier instruction registers true := by
  have first := firstHit_of_run ended
  obtain ⟨next, nextHost, _, plain, _⟩ := first.hits
  obtain ⟨instruction, _, _, stopped⟩ := run_of_firstHit first plain (run_eq_iff.mp ended).1
  rw [ended] at stopped
  exact ⟨nextHost, instruction, next.machine.registers, congrArg Run.host stopped⟩

/-- A run that hits no breakpoint is the run without breakpoints, whatever fuel it has. -/
theorem resume_of_no_hit {done fuel : Nat}
    (free : ∀ steps, engine.limitReached (done + steps) = false →
      ∀ other, ¬ engine.HitsAt host steps other) :
    engine.resume host done fuel =
      (engine.clearBreakpoints.resume host done fuel).mapEngine
        (·.withBreakpoints engine.breakpoints) := by
  induction fuel generalizing engine host done with
  | zero => rfl
  | succ fuel inductionHypothesis =>
      have limits : engine.clearBreakpoints.limitReached done = engine.limitReached done := rfl
      rw [resume, resume, limits]
      cases reached : engine.limitReached done with
      | true => rfl
      | false =>
          simp only [Bool.false_eq_true, if_false]
          have unhindered := unhindered_of_not_hitsAt (free 0 reached)
          have mapped := cycle_of_unhindered unhindered host
          rcases cycled : engine.cycle host false with ⟨outcome, next, nextHost⟩
          by_cases completed : outcome = .completed
          · subst completed
            have settings := (settings_cycle engine host false).2
            rw [cycled] at settings
            have plain := clearBreakpoints_of_completed cycled
            have plainCompletes : engine.clearBreakpoints.Completes host 1 next.clearBreakpoints
                nextHost := completes_succ_iff.mpr ⟨_, _, plain, rfl⟩
            rw [plain]
            simp only
            -- Seen from the engine after this cycle, every hit is one step nearer.
            rw [inductionHypothesis]
            · rw [settings]
            · intro steps allowed other hits
              rw [limitReached_of_cycle cycled] at allowed
              refine free (steps + 1) allowed other ?_
              rw [Nat.add_comm]
              exact (hitsAt_add settings plainCompletes).mpr hits
          · rw [cycled] at mapped
            rcases plain : engine.clearBreakpoints.cycle host false with
              ⟨plainOutcome, plainNext, plainHost⟩
            rw [plain] at mapped
            cases mapped
            cases plainOutcome with
            | completed => contradiction
            | suspended _ | halted _ _ => rfl

/-- If there is no first hit, there is none at all within the step limit. -/
theorem not_hitsAt_of_no_first (never : ∀ steps address, ¬ engine.FirstHit host steps address)
    (allowed : engine.limitReached steps = false) (other : Nat) :
    ¬ engine.HitsAt host steps other := by
  induction steps using Nat.strongRecOn generalizing other with
  | ind steps inductionHypothesis =>
      intro hits
      refine never steps other ⟨limitReached_eq_false_iff.mp allowed, hits, ?_⟩
      intro earlier below
      exact inductionHypothesis earlier below (limitReached_of_le (Nat.le_of_lt below) allowed)

theorem run_of_no_firstHit (never : ∀ steps address, ¬ engine.FirstHit host steps address)
    (fuel : Nat) :
    engine.run host fuel =
      (engine.clearBreakpoints.run host fuel).mapEngine (·.withBreakpoints engine.breakpoints) := by
  apply resume_of_no_hit
  intro steps allowed
  rw [Nat.zero_add] at allowed
  exact not_hitsAt_of_no_first never allowed

end

open BufferedHost

/-- A run stops at a breakpoint after just as many steps as cycles without breakpoints lead to the
first fetch of an instruction at which a breakpoint stands. Machine, output and input are those
that these cycles have led to. Without such a fetch, the run is the one without breakpoints; so an
address at which no instruction is ever fetched stops no run. -/
theorem breakpoint_stops_at_first_hit (engine : Engine) (host : BufferedHost) :
    (∀ steps address fuel,
      (engine.run host fuel).outcome? = some (.suspended (.breakpoint address)) ∧
          (engine.run host fuel).steps = steps ↔
        steps < fuel ∧ engine.FirstHit host steps address) ∧
    (∀ steps address next nextHost fuel, engine.FirstHit host steps address →
      engine.clearBreakpoints.Completes host steps next nextHost → steps < fuel →
      (engine.run host fuel).engine.machine = next.machine ∧
        (engine.run host fuel).host.output = nextHost.output ∧
        (engine.run host fuel).host.input = nextHost.input) ∧
    ((∀ steps address, ¬ engine.FirstHit host steps address) →
      ∀ fuel, engine.run host fuel =
        (engine.clearBreakpoints.run host fuel).mapEngine
          (·.withBreakpoints engine.breakpoints)) ∧
    ∀ address,
      (∀ steps next nextHost, engine.clearBreakpoints.Completes host steps next nextHost →
        next.machine.pc = some address →
        ∀ instruction, decode next.machine.memory address ≠ .instruction instruction) →
      ∀ fuel, (engine.run host fuel).outcome? ≠ some (.suspended (.breakpoint address)) := by
  refine ⟨?_, ?_, run_of_no_firstHit, ?_⟩
  · intro steps address fuel
    constructor
    · rintro ⟨paused, counted⟩
      rcases ended : engine.run host fuel with ⟨outcome?, total, last, lastHost⟩
      rw [ended] at paused counted
      subst paused counted
      exact ⟨(run_eq_iff.mp ended).1, firstHit_of_run ended⟩
    · rintro ⟨enough, first⟩
      obtain ⟨next, nextHost, _, plain, _⟩ := first.hits
      obtain ⟨instruction, _, _, ended⟩ := run_of_firstHit first plain enough
      rw [ended]
      exact ⟨rfl, rfl⟩
  · intro steps address next nextHost fuel first plain enough
    obtain ⟨instruction, _, _, ended⟩ := run_of_firstHit first plain enough
    rw [ended]
    exact ⟨rfl, output_announce _ _ _ _ _, input_announce _ _ _ _ _⟩
  · intro address never fuel paused
    rcases ended : engine.run host fuel with ⟨outcome?, total, last, lastHost⟩
    rw [ended] at paused
    subst paused
    obtain ⟨next, nextHost, instruction, plain, counter, _, fetched⟩ := (firstHit_of_run ended).hits
    exact never total next nextHost plain counter instruction fetched

/-- Pushes the code of an instruction that does nothing, does nothing, and halts. -/
def pushThenIdle (breakpoints : List Nat) : Engine :=
  (fresh (.ofList [2, 21, 21, 0]) .standard).withBreakpoints (.ofList breakpoints)

/-- The breakpoint at 1, inside the first instruction, stops no run, the one at 2 does. -/
theorem breakpoint_stops_at_first_hit_of_pushThenIdle :
    (pushThenIdle [1, 2]).FirstHit (start true) 1 2 ∧
      ((pushThenIdle [1, 2]).run (start true) 9).engine.machine =
        ((pushThenIdle []).step (start true) 1).engine.machine ∧
      ∀ fuel, (pushThenIdle [1]).run (start true) fuel =
        ((pushThenIdle []).run (start true) fuel).mapEngine (·.withBreakpoints (.ofList [1])) := by
  have first := ((breakpoint_stops_at_first_hit (pushThenIdle [1, 2]) (start true)).1 1 2 9).mp
    ⟨rfl, rfl⟩
  have never : ∀ steps address, ¬ (pushThenIdle [1]).FirstHit (start true) steps address := by
    intro steps address hit
    have halts : (pushThenIdle [1]).run (start true) 3 =
        ⟨some (.halted 1 .instruction), 2, _, _⟩ := rfl
    have ended := run_eq_iff.mpr ⟨Nat.lt_add_left steps (Nat.lt_succ_self 2),
      (run_eq_iff.mp halts).2⟩
    have paused := ((breakpoint_stops_at_first_hit (pushThenIdle [1]) (start true)).1 steps address
      (steps + 3)).mpr ⟨Nat.lt_add_of_pos_right (Nat.succ_pos 2), hit⟩
    rw [ended] at paused
    cases paused.1
  refine ⟨first.2, ?_, ?_⟩
  · exact ((breakpoint_stops_at_first_hit (pushThenIdle [1, 2]) (start true)).2.1 1 2
      ((pushThenIdle []).step (start true) 1).engine ((pushThenIdle []).step (start true) 1).host 9
      first.2 rfl (by decide)).1
  · exact (breakpoint_stops_at_first_hit (pushThenIdle [1]) (start true)).2.2.1 never

end Engine

end RegisterMachine
