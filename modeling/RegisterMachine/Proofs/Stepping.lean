import RegisterMachine.Host.Buffered
import RegisterMachine.Proofs.Cycle

/-!
Contract: a run is its completed cycles and what ends it.

Cycles compose: those that are still to be made begin where the completed ones
have ended, and one that is not completed ends them all. A run makes cycles
until the step limit is reached or a cycle is not completed, so it can be told
from the cycles alone, and the fuel only has to exceed the completed steps.

Owns: `Progress.andThen`, `Engine.Completes`, `Engine.Ends`.
Does not own: what a single cycle does (`Proofs.Cycle`).
-/

namespace RegisterMachine

/-- Goes on where everything was completed; what was not completed stays as it is. -/
def Progress.andThen {H : Type} (progress : Progress H) (later : Engine → H → Progress H) :
    Progress H :=
  match progress with
  | ⟨.completed, engine, host⟩ => later engine host
  | ⟨.suspended cause, engine, host⟩ => ⟨.suspended cause, engine, host⟩
  | ⟨.halted code reason, engine, host⟩ => ⟨.halted code reason, engine, host⟩

namespace Progress

variable {H : Type}

theorem andThen_of_incomplete {progress : Progress H} (later : Engine → H → Progress H)
    (incomplete : progress.outcome ≠ .completed) : progress.andThen later = progress := by
  rcases progress with ⟨outcome, engine, host⟩
  cases outcome with
  | completed => contradiction
  | suspended cause => rfl
  | halted code reason => rfl

theorem andThen_assoc (progress : Progress H) (middle later : Engine → H → Progress H) :
    (progress.andThen middle).andThen later =
      progress.andThen fun engine host => (middle engine host).andThen later := by
  rcases progress with ⟨outcome, engine, host⟩
  cases outcome <;> rfl

theorem andThen_eq_completed_iff {progress : Progress H} {later : Engine → H → Progress H}
    {last : Engine} {lastHost : H} :
    progress.andThen later = ⟨.completed, last, lastHost⟩ ↔
      ∃ next nextHost, progress = ⟨.completed, next, nextHost⟩ ∧
        later next nextHost = ⟨.completed, last, lastHost⟩ := by
  rcases progress with ⟨outcome, engine, host⟩
  constructor
  · intro completed
    cases outcome with
    | completed => exact ⟨engine, host, rfl, completed⟩
    | suspended _ | halted _ _ => cases completed
  · rintro ⟨next, nextHost, first, second⟩
    rw [first]
    exact second

end Progress

namespace Engine

section
variable {H : Type} [Host H]

/-! ## Cycles one after the other -/

theorem cycles_succ (engine : Engine) (host : H) (count : Nat) :
    engine.cycles host (count + 1) =
      (engine.cycle host false).andThen fun next nextHost => next.cycles nextHost count := by
  rw [cycles]
  rcases engine.cycle host false with ⟨outcome, next, nextHost⟩
  cases outcome <;> rfl

theorem cycles_one (engine : Engine) (host : H) :
    engine.cycles host 1 = engine.cycle host false := by
  rw [cycles_succ]
  rcases engine.cycle host false with ⟨outcome, next, nextHost⟩
  cases outcome <;> rfl

theorem cycles_add (engine : Engine) (host : H) (first later : Nat) :
    engine.cycles host (first + later) =
      (engine.cycles host first).andThen fun next nextHost => next.cycles nextHost later := by
  induction first generalizing engine host with
  | zero =>
      rw [Nat.zero_add]
      rfl
  | succ first inductionHypothesis =>
      rw [Nat.succ_add, cycles_succ, cycles_succ, Progress.andThen_assoc]
      congr 1
      funext next nextHost
      exact inductionHypothesis next nextHost

/-- The engine and its host after this many completed cycles. -/
def Completes (engine : Engine) (host : H) (count : Nat) (next : Engine) (nextHost : H) : Prop :=
  engine.cycles host count = ⟨.completed, next, nextHost⟩

variable {engine next last : Engine} {host nextHost lastHost : H} {count : Nat}

theorem completes_zero (engine : Engine) (host : H) : engine.Completes host 0 engine host := rfl

theorem completes_succ_iff :
    engine.Completes host (count + 1) last lastHost ↔
      ∃ next nextHost, engine.cycle host false = ⟨.completed, next, nextHost⟩ ∧
        next.Completes nextHost count last lastHost := by
  rw [Completes, cycles_succ, Progress.andThen_eq_completed_iff]
  rfl

/-- The last of some completed cycles. -/
theorem completes_succ_last_iff :
    engine.Completes host (count + 1) last lastHost ↔
      ∃ next nextHost, engine.Completes host count next nextHost ∧
        next.cycle nextHost false = ⟨.completed, last, lastHost⟩ := by
  rw [Completes, cycles_add, Progress.andThen_eq_completed_iff]
  simp only [cycles_one, Completes]

theorem Completes.unique {other : Engine} {otherHost : H}
    (completes : engine.Completes host count next nextHost)
    (again : engine.Completes host count other otherHost) : other = next ∧ otherHost = nextHost := by
  have same := again.symm.trans completes
  cases same
  exact ⟨rfl, rfl⟩

/-- Completed cycles leave configuration and breakpoints alone. -/
theorem Completes.settings (completes : engine.Completes host count next nextHost) :
    next.config = engine.config ∧ next.breakpoints = engine.breakpoints := by
  have kept := keptByCycles_settings.cycles engine host count
  rw [completes] at kept
  exact kept

/-- What follows some completed cycles is told by the engine that they have led to. -/
theorem Completes.cycles_add (completes : engine.Completes host count next nextHost)
    (later : Nat) : engine.cycles host (count + later) = next.cycles nextHost later := by
  rw [Engine.cycles_add, completes]
  rfl

theorem Completes.exists_prefix {fewer : Nat} (completes : engine.Completes host count last lastHost)
    (fewerLe : fewer ≤ count) : ∃ next nextHost, engine.Completes host fewer next nextHost := by
  obtain ⟨more, rfl⟩ := Nat.exists_eq_add_of_le fewerLe
  rw [Completes, Engine.cycles_add, Progress.andThen_eq_completed_iff] at completes
  obtain ⟨next, nextHost, first, _⟩ := completes
  exact ⟨next, nextHost, first⟩

/-- A cycle that is not completed ends all later ones with it. -/
theorem Completes.cycles_of_stopped {outcome : Outcome} {more : Nat}
    (completes : engine.Completes host count next nextHost)
    (stopped : next.cycle nextHost false = ⟨outcome, last, lastHost⟩)
    (incomplete : outcome ≠ .completed) (later : count < more) :
    engine.cycles host more = ⟨outcome, last, lastHost⟩ := by
  obtain ⟨rest, rfl⟩ := Nat.exists_eq_add_of_lt later
  rw [Nat.add_assoc, completes.cycles_add, cycles_succ, stopped]
  exact Progress.andThen_of_incomplete _ incomplete

/-! ## The step limit -/

theorem limitReached_of_le {fewer : Nat} (fewerLe : fewer ≤ count)
    (free : engine.limitReached count = false) : engine.limitReached fewer = false := by
  unfold limitReached at free ⊢
  cases limit : engine.config.stepLimit with
  | none => rfl
  | some most =>
      simp only [limit, decide_eq_false_iff_not] at free ⊢
      omega

theorem limitReached_of_config (same : next.config = engine.config) (steps : Nat) :
    next.limitReached steps = engine.limitReached steps := by
  rw [limitReached, limitReached, same]

theorem limitReached_of_cycle {outcome : Outcome}
    (cycled : engine.cycle host false = ⟨outcome, next, nextHost⟩) (done steps : Nat) :
    next.limitReached (done + 1 + steps) = engine.limitReached (done + (steps + 1)) := by
  have config := (settings_cycle engine host false).1
  rw [cycled] at config
  rw [limitReached_of_config config, Nat.add_right_comm, Nat.add_assoc]

theorem limitReached_of_unlimited (unlimited : engine.config.stepLimit = none) (steps : Nat) :
    engine.limitReached steps = false := by
  rw [limitReached, unlimited]

theorem limitReached_of_limit {limit : Nat} (limited : engine.config.stepLimit = some limit)
    (steps : Nat) : engine.limitReached steps = decide (limit ≤ steps) := by
  rw [limitReached, limited]

/-! ## Runs -/

/-- How a run ends that has `steps` steps left to complete after `done` earlier ones: the step limit
is reached, or the next cycle is not completed. -/
inductive Ends (engine : Engine) (host : H) (done steps : Nat) : Outcome → Engine → H → Prop where
  | limited {last : Engine} {lastHost : H}
      (completes : engine.Completes host steps last lastHost)
      (before : ∀ earlier, earlier < steps → engine.limitReached (done + earlier) = false)
      (reached : engine.limitReached (done + steps) = true) :
      Ends engine host done steps .completed last lastHost
  | stopped {outcome : Outcome} {next last : Engine} {nextHost lastHost : H}
      (completes : engine.Completes host steps next nextHost)
      (free : engine.limitReached (done + steps) = false)
      (stops : next.cycle nextHost false = ⟨outcome, last, lastHost⟩)
      (incomplete : outcome ≠ .completed) :
      Ends engine host done steps outcome last lastHost

variable {outcome : Outcome} {done steps fuel : Nat}

theorem resume_of_completes (completes : engine.Completes host count next nextHost)
    (before : ∀ earlier, earlier < count → engine.limitReached (done + earlier) = false)
    (fuel : Nat) :
    engine.resume host done (count + fuel) = next.resume nextHost (done + count) fuel := by
  induction count generalizing engine host done with
  | zero =>
      cases completes
      rw [Nat.zero_add]
      rfl
  | succ count inductionHypothesis =>
      obtain ⟨middle, middleHost, cycled, later⟩ := completes_succ_iff.mp completes
      have free : engine.limitReached done = false := before 0 (Nat.succ_pos count)
      have beforeLater : ∀ earlier, earlier < count →
          middle.limitReached (done + 1 + earlier) = false := by
        intro earlier below
        rw [limitReached_of_cycle cycled]
        exact before (earlier + 1) (Nat.succ_lt_succ below)
      rw [Nat.succ_add, resume, free, cycled]
      simp only [Bool.false_eq_true, if_false]
      rw [inductionHypothesis later beforeLater, Nat.add_right_comm, Nat.add_assoc]

theorem resume_of_ends (ends : engine.Ends host done steps outcome last lastHost)
    (enough : steps < fuel) :
    engine.resume host done fuel = ⟨some outcome, done + steps, last, lastHost⟩ := by
  obtain ⟨rest, rfl⟩ := Nat.exists_eq_add_of_lt enough
  cases ends with
  | limited completes before reached =>
      rw [Nat.add_assoc, resume_of_completes completes before, resume,
        limitReached_of_config completes.settings.1, reached, if_pos rfl]
  | @stopped next _ nextHost _ _ completes free stops incomplete =>
      have before : ∀ earlier, earlier < steps → engine.limitReached (done + earlier) = false :=
        fun earlier below => limitReached_of_le (by omega) free
      rw [Nat.add_assoc, resume_of_completes completes before, resume,
        limitReached_of_config completes.settings.1, free, stops]
      cases outcome with
      | completed => contradiction
      | suspended _ | halted _ _ => rfl

theorem ends_of_cycle (free : engine.limitReached done = false)
    (cycled : engine.cycle host false = ⟨.completed, next, nextHost⟩)
    (ends : next.Ends nextHost (done + 1) steps outcome last lastHost) :
    engine.Ends host done (steps + 1) outcome last lastHost := by
  cases ends with
  | limited completes before reached =>
      rw [limitReached_of_cycle cycled] at reached
      refine .limited (completes_succ_iff.mpr ⟨_, _, cycled, completes⟩) ?_ reached
      intro earlier below
      cases earlier with
      | zero => exact free
      | succ earlier =>
          rw [← limitReached_of_cycle cycled]
          exact before earlier (Nat.lt_of_succ_lt_succ below)
  | stopped completes later stops incomplete =>
      rw [limitReached_of_cycle cycled] at later
      exact .stopped (completes_succ_iff.mpr ⟨_, _, cycled, completes⟩) later stops incomplete

theorem exists_ends_of_resume {total : Nat}
    (ended : engine.resume host done fuel = ⟨some outcome, total, last, lastHost⟩) :
    ∃ steps, total = done + steps ∧ steps < fuel ∧
      engine.Ends host done steps outcome last lastHost := by
  induction fuel generalizing engine host done with
  | zero => cases ended
  | succ fuel inductionHypothesis =>
      rw [resume] at ended
      cases reached : engine.limitReached done with
      | true =>
          rw [reached, if_pos rfl] at ended
          cases ended
          exact ⟨0, rfl, Nat.succ_pos fuel,
            .limited rfl (fun earlier below => absurd below (Nat.not_lt_zero earlier)) reached⟩
      | false =>
          rw [reached, if_neg Bool.false_ne_true] at ended
          rcases cycled : engine.cycle host false with ⟨cycleOutcome, next, nextHost⟩
          rw [cycled] at ended
          by_cases completed : cycleOutcome = .completed
          · -- The rest of the run has an end of its own, counted from one step later.
            subst completed
            obtain ⟨steps, counted, enough, ends⟩ := inductionHypothesis ended
            exact ⟨steps + 1, by omega, Nat.succ_lt_succ enough,
              ends_of_cycle reached cycled ends⟩
          · have same : cycleOutcome = outcome ∧ total = done ∧ next = last ∧
                nextHost = lastHost := by
              cases cycleOutcome with
              | completed => contradiction
              | suspended _ | halted _ _ => cases ended; exact ⟨rfl, rfl, rfl, rfl⟩
            obtain ⟨rfl, rfl, rfl, rfl⟩ := same
            exact ⟨0, rfl, Nat.succ_pos fuel, .stopped rfl reached cycled completed⟩

/-- A run has an outcome exactly if there is an end that the fuel suffices for. -/
theorem run_eq_iff :
    engine.run host fuel = ⟨some outcome, steps, last, lastHost⟩ ↔
      steps < fuel ∧ engine.Ends host 0 steps outcome last lastHost := by
  constructor
  · intro ended
    obtain ⟨counted, isTotal, enough, ends⟩ := exists_ends_of_resume ended
    rw [Nat.zero_add] at isTotal
    subst isTotal
    exact ⟨enough, ends⟩
  · rintro ⟨enough, ends⟩
    rw [run, resume_of_ends ends enough, Nat.zero_add]

/-! ## Steps and runs -/

theorem step_of_pos (positive : 1 ≤ count) : engine.step host count = engine.cycles host count := by
  rw [step, if_neg (Nat.ne_of_gt positive)]

/-- Some cycles are completed all of them, or end with the first one that is not. -/
theorem completes_or_stops (engine : Engine) (host : H) (count : Nat) :
    (∃ next nextHost, engine.Completes host count next nextHost) ∨
      ∃ steps next nextHost, steps < count ∧ engine.Completes host steps next nextHost ∧
        next.cycle nextHost false = engine.cycles host count ∧
        (engine.cycles host count).outcome ≠ .completed := by
  induction count with
  | zero => exact .inl ⟨engine, host, completes_zero engine host⟩
  | succ count inductionHypothesis =>
      rcases inductionHypothesis with
        ⟨next, nextHost, completes⟩ | ⟨steps, next, nextHost, below, completes, stops, incomplete⟩
      · have last : engine.cycles host (count + 1) = next.cycle nextHost false := by
          rw [completes.cycles_add, cycles_one]
        rw [last]
        rcases cycled : next.cycle nextHost false with ⟨outcome, after, afterHost⟩
        by_cases completed : outcome = .completed
        · subst completed
          exact .inl ⟨after, afterHost, last.trans cycled⟩
        · exact .inr ⟨count, next, nextHost, Nat.lt_succ_self count, completes, cycled, completed⟩
      · have same : engine.cycles host (count + 1) = engine.cycles host count := by
          rw [completes.cycles_of_stopped stops incomplete (Nat.lt_succ_of_lt below)]
        rw [same]
        exact .inr ⟨steps, next, nextHost, Nat.lt_succ_of_lt below, completes, stops, incomplete⟩

theorem run_of_limit {limit : Nat} (limited : engine.config.stepLimit = some limit) (host : H) :
    ∃ steps, steps ≤ limit ∧ ((engine.cycles host limit).outcome = .completed ↔ steps = limit) ∧
      ∀ fuel, steps < fuel →
        engine.run host fuel =
          ⟨some (engine.cycles host limit).outcome, steps, (engine.cycles host limit).engine,
            (engine.cycles host limit).host⟩ := by
  rcases completes_or_stops engine host limit with
    ⟨last, lastHost, completes⟩ | ⟨steps, next, nextHost, below, completes, stops, incomplete⟩
  · have isLast : engine.cycles host limit = ⟨.completed, last, lastHost⟩ := completes
    rw [isLast]
    refine ⟨limit, Nat.le_refl limit, ⟨fun _ => rfl, fun _ => rfl⟩, ?_⟩
    intro fuel enough
    refine run_eq_iff.mpr ⟨enough, .limited completes ?_ ?_⟩
    · intro earlier below
      rw [limitReached_of_limit limited, Nat.zero_add]
      exact decide_eq_false (Nat.not_le_of_gt below)
    · rw [limitReached_of_limit limited, Nat.zero_add]
      exact decide_eq_true (Nat.le_refl limit)
  · refine ⟨steps, Nat.le_of_lt below, ⟨fun completed => absurd completed incomplete, ?_⟩, ?_⟩
    · intro isLimit
      exact absurd isLimit (Nat.ne_of_lt below)
    · intro fuel enough
      refine run_eq_iff.mpr ⟨enough, .stopped completes ?_ stops incomplete⟩
      rw [limitReached_of_limit limited, Nat.zero_add]
      exact decide_eq_false (Nat.not_le_of_gt below)

theorem incomplete_of_run (unlimited : engine.config.stepLimit = none)
    (ended : engine.run host fuel = ⟨some outcome, steps, last, lastHost⟩) :
    outcome ≠ .completed := by
  obtain ⟨_, ends⟩ := run_eq_iff.mp ended
  cases ends with
  | limited _ _ reached =>
      rw [limitReached_of_unlimited unlimited] at reached
      contradiction
  | stopped _ _ _ incomplete => exact incomplete

/-- Without a step limit, a run ends with the first cycle that is not completed. -/
theorem run_eq_iff_of_unlimited (unlimited : engine.config.stepLimit = none)
    (incomplete : outcome ≠ .completed) :
    engine.run host fuel = ⟨some outcome, steps, last, lastHost⟩ ↔
      steps < fuel ∧
      (∀ count, 1 ≤ count → count ≤ steps → (engine.step host count).outcome = .completed) ∧
      ∀ count, steps < count → engine.step host count = ⟨outcome, last, lastHost⟩ := by
  rw [run_eq_iff]
  constructor
  · rintro ⟨enough, ends⟩
    cases ends with
    | limited _ _ _ => contradiction
    | stopped completes _ stops _ =>
        refine ⟨enough, ?_, ?_⟩
        · intro count positive below
          obtain ⟨next, nextHost, first⟩ := completes.exists_prefix below
          rw [step_of_pos positive, first]
        · intro count above
          rw [step_of_pos (Nat.one_le_of_lt above)]
          exact completes.cycles_of_stopped stops incomplete above
  · rintro ⟨enough, completed, stopped⟩
    refine ⟨enough, ?_⟩
    have stops : engine.cycles host (steps + 1) = ⟨outcome, last, lastHost⟩ := by
      rw [← step_of_pos (Nat.succ_pos steps)]
      exact stopped (steps + 1) (Nat.lt_succ_self steps)
    obtain ⟨next, nextHost, completes⟩ : ∃ next nextHost,
        engine.Completes host steps next nextHost := by
      cases steps with
      | zero => exact ⟨engine, host, completes_zero engine host⟩
      | succ fewer =>
          have first := completed (fewer + 1) (Nat.succ_pos fewer) (Nat.le_refl _)
          rw [step_of_pos (Nat.succ_pos fewer)] at first
          rcases made : engine.cycles host (fewer + 1) with ⟨outcome, next, nextHost⟩
          rw [made] at first
          cases first
          exact ⟨next, nextHost, made⟩
    rw [completes.cycles_add, cycles_one] at stops
    exact .stopped completes (limitReached_of_unlimited unlimited _) stops incomplete

/-- Steps compose, and a run is made of steps: with a limit it is the step of as many cycles, and
without one it ends as the steps do that are long enough. -/
theorem steps_compose_and_run_iterates (engine : Engine) (host : H) :
    (∀ first later, 1 ≤ first → 1 ≤ later →
      engine.step host (first + later) =
        (engine.step host first).andThen fun next nextHost => next.step nextHost later) ∧
    (∀ limit, 1 ≤ limit → engine.config.stepLimit = some limit →
      ∃ steps, steps ≤ limit ∧ ((engine.step host limit).outcome = .completed ↔ steps = limit) ∧
        ∀ fuel, steps < fuel →
          engine.run host fuel =
            ⟨some (engine.step host limit).outcome, steps, (engine.step host limit).engine,
              (engine.step host limit).host⟩) ∧
    (engine.config.stepLimit = some 0 →
      ∀ fuel, 0 < fuel → engine.run host fuel = ⟨some .completed, 0, engine, host⟩) ∧
    (engine.config.stepLimit = none →
      (∀ fuel, (engine.run host fuel).outcome? ≠ some .completed) ∧
      ∀ outcome steps last lastHost fuel, outcome ≠ .completed →
        (engine.run host fuel = ⟨some outcome, steps, last, lastHost⟩ ↔
          steps < fuel ∧
          (∀ count, 1 ≤ count → count ≤ steps →
            (engine.step host count).outcome = .completed) ∧
          ∀ count, steps < count → engine.step host count = ⟨outcome, last, lastHost⟩)) := by
  refine ⟨?_, ?_, ?_, ?_⟩
  · intro first later firstPositive laterPositive
    rw [step_of_pos (Nat.le_add_right_of_le firstPositive), step_of_pos firstPositive, cycles_add]
    congr 1
    funext next nextHost
    exact (step_of_pos laterPositive).symm
  · intro limit positive limited
    rw [step_of_pos positive]
    exact run_of_limit limited host
  · intro limited fuel enough
    obtain ⟨steps, atMost, _, runs⟩ := run_of_limit limited host
    rw [runs fuel (Nat.lt_of_le_of_lt atMost enough), Nat.le_zero.mp atMost]
    rfl
  · intro unlimited
    refine ⟨?_, ?_⟩
    · intro fuel completed
      rcases ended : engine.run host fuel with ⟨outcome?, steps, last, lastHost⟩
      rw [ended] at completed
      cases completed
      exact incomplete_of_run unlimited ended rfl
    · intro outcome steps last lastHost fuel incomplete
      exact run_eq_iff_of_unlimited unlimited incomplete

end

open BufferedHost

/-- Does nothing twice, and halts. -/
def idleTwice (stepLimit : Option Nat) : Engine :=
  fresh (.ofList [21, 21, 0]) ⟨true, stepLimit⟩

theorem steps_compose_and_run_iterates_of_idleTwice :
    (idleTwice none).step (start true) (1 + 2) =
        ((idleTwice none).step (start true) 1).andThen
          (fun next nextHost => next.step nextHost 2) ∧
      (∀ fuel, 2 < fuel →
        (idleTwice (some 2)).run (start true) fuel =
          ⟨some .completed, 2, ((idleTwice (some 2)).step (start true) 2).engine,
            ((idleTwice (some 2)).step (start true) 2).host⟩) ∧
      (idleTwice (some 0)).run (start true) 1 =
        ⟨some .completed, 0, idleTwice (some 0), start true⟩ ∧
      ∀ count, 2 < count →
        (idleTwice none).step (start true) count =
          ⟨.halted 1 .instruction, ((idleTwice none).run (start true) 3).engine,
            ((idleTwice none).run (start true) 3).host⟩ := by
  refine ⟨?_, ?_, ?_, ?_⟩
  · exact (steps_compose_and_run_iterates (idleTwice none) (start true)).1 1 2 (by decide)
      (by decide)
  · obtain ⟨steps, _, completed, runs⟩ :=
      (steps_compose_and_run_iterates (idleTwice (some 2)) (start true)).2.1 2 (by decide) rfl
    obtain rfl : steps = 2 := completed.mp rfl
    exact runs
  · exact (steps_compose_and_run_iterates (idleTwice (some 0)) (start true)).2.2.1 rfl 1
      (by decide)
  · have ended := (steps_compose_and_run_iterates (idleTwice none) (start true)).2.2.2 rfl
    exact ((ended.2 (.halted 1 .instruction) 2 _ _ 3 nofun).mp rfl).2.2

end Engine

end RegisterMachine
