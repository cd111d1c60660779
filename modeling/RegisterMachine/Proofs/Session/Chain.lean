import RegisterMachine.Proofs.Session.Resumption
import RegisterMachine.Proofs.Session.Success

/-!
Contract: sessions that go on from each other's files are one session.

A session that a breakpoint has stopped leaves its machine in a file, and
another one takes it from there with a step past the breakpoint. What such
sessions print in succession, the steps they take together, the way the last one
ends and the machine that it saves are those of one session that no breakpoint
stops.

Owns: `chain`, and its agreement with a session without breakpoints.
Does not own: runs in memory (`Proofs.Session.Resumption`); a single session
(`Proofs.Session.Success`).
-/

namespace RegisterMachine.Session

open Engine Files

/-! ## Chains -/

/-- The plan that goes on from what this one saves, with a step past the breakpoint. -/
def Plan.resumed (plan : Plan) : Plan := { plan with state := plan.save, continueFirst := true }

/-- Runs a session, and after each one that a breakpoint has stopped another one that goes on from
there. At most `rounds` sessions follow the first one. -/
def chain {m : Type → Type} [Monad m] [Environment m] (plan : Plan) (room : Option Nat)
    (fuel : Nat) : (rounds : Nat) → ExceptT Error m (List Report)
  | 0 => do
      let report ← ExceptT.mk (Session.run plan room fuel)
      return [report]
  | rounds + 1 => do
      let report ← ExceptT.mk (Session.run plan room fuel)
      match report.stop with
      | .suspended (.breakpoint _) =>
          let later ← chain plan.resumed room fuel rounds
          return report :: later
      | _ => return [report]

/-- The steps that sessions have taken together. -/
def totalSteps : List Report → Nat
  | [] => 0
  | report :: later => report.steps + totalSteps later

/-- The plan has no input and no step limit, saves the machine here and writes nothing else there,
and its breakpoints are addresses of 64 bits. -/
structure Plan.Chainable (plan : Plan) (path : String) : Prop where
  save : plan.save = some path
  noFile : plan.input = none
  noLines : plan.send = []
  untyped : plan.readInput = false
  unlimited : plan.maxSteps = none
  apart : plan.WritesApart
  addressable : ∀ address ∈ plan.breakpoints, address < 0x10000000000000000

variable {plan : Plan} {path : String} {room : Option Nat} {fuel : Nat} {desk after : Desk}

theorem Plan.Chainable.resumed (chainable : plan.Chainable path) :
    plan.resumed.Chainable path where
  save := chainable.save
  noFile := chainable.noFile
  noLines := chainable.noLines
  untyped := chainable.untyped
  unlimited := chainable.unlimited
  apart := ⟨chainable.apart.targets, chainable.apart.input, chainable.apart.save⟩
  addressable := chainable.addressable

theorem Plan.Leads.resumed (leads : plan.Leads) : plan.resumed.Leads := ⟨leads.targets, leads.save⟩

theorem Plan.Chainable.bypasses_resumed (chainable : plan.Chainable path) :
    plan.resumed.bypasses = true := by
  have unlimited : plan.resumed.maxSteps = none := chainable.unlimited
  rw [Plan.bypasses, unlimited]
  rfl

theorem Plan.Chainable.engineConfig (chainable : plan.Chainable path) :
    plan.engineConfig = ⟨!plan.disableTrace, none⟩ := by
  rw [Plan.engineConfig, Plan.stepLimit, chainable.unlimited]
  split <;> rfl

/-! ## From one session to the next -/

/-- What a session saves at a breakpoint gives the next one an engine that cannot be told from the
one that was stopped. -/
theorem interchangeable_resumed {engine : Engine} {address : Nat}
    (chainable : plan.Chainable path) (image : Bytes) (config : engine.config = plan.engineConfig)
    (breakpoints : engine.breakpoints = .ofList plan.breakpoints)
    (counter : engine.machine.pc = some address) :
    (Supplies.engine ⟨image, some engine.machine, none⟩ plan.resumed).Interchangeable engine := by
  have sameConfig : plan.resumed.engineConfig = engine.config := by
    rw [config, chainable.engineConfig, chainable.resumed.engineConfig]
    rfl
  rw [Supplies.engine_eq, sameConfig]
  have restored := @interchangeable_restore engine
    ((Engine.fresh (.ofBytes image) engine.config).withBreakpoints (.ofList plan.breakpoints))
    breakpoints.symm rfl address counter
  exact restored.symm

variable {before : Array Word} {run last : Run BufferedHost} {supplies : Supplies}

/-- A run that a breakpoint has stopped still has the settings of the session. -/
theorem settings_of_continues {engine : Engine} {host : BufferedHost} {address done : Nat}
    (continues : RunContinues before (supplies.run plan fuel)
      ⟨some (.suspended (.breakpoint address)), done, engine, host⟩) :
    engine.config = plan.engineConfig ∧ engine.breakpoints = .ofList plan.breakpoints ∧
      engine.machine.pc = some address ∧ address ∈ plan.breakpoints := by
  obtain ⟨counter, member⟩ := counter_of_drive continues.outcome?
  obtain ⟨config, breakpoints⟩ := settings_drive (supplies.engine plan)
    (recorder (supplies.input plan)) plan.bypasses fuel
  have set : (supplies.engine plan).breakpoints = .ofList plan.breakpoints := by
    rw [supplies.engine_eq]
    rfl
  rw [set] at breakpoints member
  refine ⟨?_, ?_, ?_, Breakpoints.mem_ofList_iff.mp member⟩
  · exact (continues.engine.config.symm.trans config).trans (supplies.config_engine plan)
  · exact continues.engine.breakpoints.symm.trans breakpoints
  · exact (congrArg Machine.pc continues.engine.machine).symm.trans counter

/-- What a session saves is found by the session that goes on from there. -/
theorem areIn_resumed {machine : Machine} (chainable : plan.Chainable path)
    (areIn : supplies.AreIn desk.files plan) (retains : Retains desk after)
    (saved : after.files.read path = .ok (Snapshot.encode machine))
    (addressable : machine.Addressable) :
    ∃ image, Supplies.AreIn ⟨image, some machine, none⟩ after.files plan.resumed := by
  have present : (desk.files.contentAt? plan.program).isSome = true :=
    Option.isSome_of_eq_some (read_eq_ok_iff.mp areIn.image)
  obtain ⟨image, isImage⟩ := Option.isSome_iff_exists.mp (retains plan.program present)
  refine ⟨image, read_eq_ok_iff.mpr isImage, ?_, ?_⟩
  · show Option.Rel (HoldsMachine after.files) plan.save (some machine)
    rw [chainable.save]
    exact .some ⟨_, saved, Snapshot.decode_of_readings (Snapshot.readAll_readProbe_encode machine)
      (Snapshot.readAll_readMachine_encode addressable)⟩
  · show Option.Rel (HoldsText after.files) plan.input none
    rw [chainable.noFile]
    exact .none

theorem Supplies.AreIn.input_eq_empty (areIn : supplies.AreIn desk.files plan)
    (chainable : plan.Chainable path) : supplies.input plan = .empty := by
  rw [areIn.input_eq chainable.noFile, chainable.noLines]
  rfl

/-- The session that goes on from a breakpoint finds what it needs, and does what the run would have
done that was stopped there. -/
theorem exists_resumed {engine : Engine} {host : BufferedHost} {address done : Nat}
    (chainable : plan.Chainable path) (areIn : supplies.AreIn desk.files plan)
    (continues : RunContinues before (supplies.run plan fuel)
      ⟨some (.suspended (.breakpoint address)), done, engine, host⟩)
    (retains : Retains desk after)
    (saved : after.files.read path = .ok (Snapshot.encode engine.machine)) :
    ∃ next : Supplies, next.AreIn after.files plan.resumed ∧
      RunContinues host.output (next.run plan.resumed fuel) (drive engine host true fuel) := by
  obtain ⟨config, breakpoints, counter, member⟩ := settings_of_continues continues
  have addressable : engine.machine.Addressable := by
    intro pc isCounter
    cases counter.symm.trans isCounter
    exact chainable.addressable address member
  obtain ⟨image, areInNext⟩ := areIn_resumed chainable areIn retains saved addressable
  refine ⟨_, areInNext, ?_⟩
  rw [Supplies.run, chainable.bypasses_resumed, areInNext.input_eq_empty chainable.resumed]
  exact drive_continues (interchangeable_resumed chainable image config breakpoints counter)
    ⟨rfl, continues.host.goingEmpty, Array.append_empty.symm⟩ true fuel

/-! ## One session as a part of a run -/

theorem length_printedBytes_of_append {host : BufferedHost} {more : Array Word}
    (printed : host.output = before ++ more) :
    (printedBytes host).length =
      (before.toList.flatMap encodeWord).length + (more.toList.flatMap encodeWord).length := by
  rw [printedBytes, printed, Array.toList_append, List.flatMap_append, List.length_append]

/-- The report of a session and the desk that it leaves tell how a run ends that had printed
`before` already. -/
structure Tells (path : String) (desk : Desk) (before : Array Word) (run : Run BufferedHost)
    (report : Report) (after : Desk) : Prop where
  stop : run.outcome? = some report.stop
  result : report.result = run.engine.result
  pc : report.pc = run.engine.machine.pc
  output : ∃ more, run.host.output = before ++ more ∧
    after.output = desk.output ++ more.toList.flatMap encodeWord
  saved : after.files.read path = .ok (Snapshot.encode run.engine.machine)

/-- Two sessions that tell the parts of a run in succession tell the whole of it. -/
theorem Tells.trans {middle : Desk} {report final : Report}
    (first : Tells path desk before run report middle)
    (later : Tells path middle run.host.output last final after) :
    Tells path desk before last final after := by
  obtain ⟨printed, isRun, isMiddle⟩ := first.output
  obtain ⟨more, isLast, isAfter⟩ := later.output
  refine ⟨later.stop, later.result, later.pc, ⟨printed ++ more, ?_, ?_⟩, later.saved⟩
  · rw [isLast, isRun, Array.append_assoc]
  · rw [isAfter, isMiddle, List.append_assoc, Array.toList_append, List.flatMap_append]

/-- A session of a chain does what the run does that it continues. -/
theorem exists_tells {outcome : Outcome} (chainable : plan.Chainable path) (leads : plan.Leads)
    (areIn : supplies.AreIn desk.files plan)
    (continues : RunContinues before (supplies.run plan fuel) run)
    (stopped : run.outcome? = some outcome)
    (fits : FitsIn room (printedBytes run.host).length) :
    ∃ report after, desk.perform (Session.run plan room fuel) = (.ok report, after) ∧
      Tells path desk before run report after ∧ report.steps = run.steps ∧
      Retains desk after := by
  have shorter : (printedBytes (supplies.run plan fuel).host).length ≤
      (printedBytes run.host).length := by
    rw [length_printedBytes_of_append continues.host.output]
    exact Nat.le_add_left _ _
  obtain ⟨report, after, performed, delivered, retains⟩ := exists_delivered areIn leads
    chainable.apart chainable.noFile chainable.untyped (continues.outcome?.trans stopped)
    (fits.mono shorter)
  have machine := continues.engine.machine
  refine ⟨report, after, performed, ⟨?_, ?_, ?_, ⟨_, continues.host.output, ?_⟩, ?_⟩,
    delivered.steps.trans continues.steps, retains⟩
  · exact continues.outcome?.symm.trans delivered.stop
  · rw [delivered.result, result, result, machine]
  · rw [delivered.pc, machine]
  · rw [delivered.output, encode_outputText]
  · rw [delivered.save path chainable.save, machine]

/-! ## Sessions one after the other -/

theorem chain_of_settled {report : Report} (rounds : Nat)
    (delivered : desk.perform (Session.run plan room fuel) = (.ok report, after))
    (settled : ∀ address, report.stop ≠ .suspended (.breakpoint address)) :
    Succeeds (chain plan room fuel rounds) desk [report] after := by
  have first : Succeeds (ExceptT.mk (Session.run plan room fuel)) desk report after := delivered
  cases rounds with
  | zero => exact (succeeds_bind_of first).mpr (succeeds_pure_iff.mpr ⟨rfl, rfl⟩)
  | succ rounds =>
      refine (succeeds_bind_of first).mpr ?_
      split
      · next address paused => exact absurd paused (settled address)
      · exact succeeds_pure_iff.mpr ⟨rfl, rfl⟩

theorem chain_of_breakpoint {report : Report} {later : List Report} {rounds address : Nat}
    {middle : Desk} (delivered : desk.perform (Session.run plan room fuel) = (.ok report, middle))
    (paused : report.stop = .suspended (.breakpoint address))
    (goesOn : Succeeds (chain plan.resumed room fuel rounds) middle later after) :
    Succeeds (chain plan room fuel (rounds + 1)) desk (report :: later) after := by
  have first : Succeeds (ExceptT.mk (Session.run plan room fuel)) desk report middle := delivered
  refine (succeeds_bind_of first).mpr ?_
  rw [paused]
  exact (succeeds_bind_of goesOn).mpr (succeeds_pure_iff.mpr ⟨rfl, rfl⟩)

/-- The reports of a chain and the desk that it leaves tell the end of a run that had printed
`before` already: only the last session was not stopped by a breakpoint, and together they have
taken `total` steps. -/
structure Arrives (path : String) (desk : Desk) (before : Array Word) (total : Nat)
    (last : Run BufferedHost) (earlier : List Report) (final : Report) (after : Desk) : Prop where
  paused : ∀ report ∈ earlier, ∃ address, report.stop = .suspended (.breakpoint address)
  settled : ∀ address, final.stop ≠ .suspended (.breakpoint address)
  steps : totalSteps (earlier ++ [final]) = total
  tells : Tells path desk before last final after

/-- Chained sessions get to the end of the run that goes on from breakpoint to breakpoint. -/
theorem exists_arrives {rounds total : Nat} {outcome : Outcome}
    (goesOn : GoesOnTo fuel rounds run total last) (stopped : last.outcome? = some outcome)
    (chainable : plan.Chainable path) (leads : plan.Leads) (areIn : supplies.AreIn desk.files plan)
    (continues : RunContinues before (supplies.run plan fuel) run)
    (fits : FitsIn room (printedBytes last.host).length) :
    ∃ earlier final after,
      Succeeds (chain plan room fuel rounds) desk (earlier ++ [final]) after ∧
        Arrives path desk before total last earlier final after := by
  -- The plan and what has been printed are general: each session goes on from the file of the one
  -- before, with a host that has printed nothing.
  induction goesOn generalizing plan desk supplies before with
  | @ended rounds run settled =>
      obtain ⟨report, after, performed, tells, steps, _⟩ :=
        exists_tells chainable leads areIn continues stopped fits
      have settledReport : ∀ address, report.stop ≠ .suspended (.breakpoint address) :=
        fun address same => settled address (tells.stop.trans (congrArg some same))
      exact ⟨[], report, after, chain_of_settled rounds performed settledReport, nofun,
        settledReport, steps, tells⟩
  | @resumed rounds total address done engine host last later inductionHypothesis =>
      obtain ⟨more, printed⟩ := later.resumed.exists_output continues.host.goingEmpty
      have shorter : (printedBytes host).length ≤ (printedBytes last.host).length := by
        rw [length_printedBytes_of_append printed]
        exact Nat.le_add_right _ _
      obtain ⟨report, middle, performed, tells, steps, retains⟩ :=
        exists_tells chainable leads areIn continues rfl (fits.mono shorter)
      have paused : report.stop = .suspended (.breakpoint address) :=
        (Option.some.inj tells.stop).symm
      obtain ⟨next, nextIn, nextContinues⟩ :=
        exists_resumed chainable areIn continues retains tells.saved
      obtain ⟨earlier, final, after, chained, arrives⟩ := inductionHypothesis stopped
        chainable.resumed leads.resumed nextIn nextContinues fits
      refine ⟨report :: earlier, final, after, chain_of_breakpoint performed paused chained, ?_,
        arrives.settled, ?_, tells.trans arrives.tells⟩
      · exact List.forall_mem_cons.mpr ⟨⟨address, paused⟩, arrives.paused⟩
      · rw [List.cons_append, totalSteps, steps, arrives.steps]

/-! ## Sessions without breakpoints -/

/-- The plan without its breakpoints. -/
def Plan.uninterrupted (plan : Plan) : Plan := { plan with breakpoints := [] }

theorem Plan.Chainable.uninterrupted (chainable : plan.Chainable path) :
    plan.uninterrupted.Chainable path where
  save := chainable.save
  noFile := chainable.noFile
  noLines := chainable.noLines
  untyped := chainable.untyped
  unlimited := chainable.unlimited
  apart := ⟨chainable.apart.targets, chainable.apart.input, chainable.apart.save⟩
  addressable := nofun

theorem Supplies.run_of_starts (supplies : Supplies) (starts : plan.continueFirst = false)
    (fuel : Nat) :
    supplies.run plan fuel =
      (supplies.engine plan).run (recorder (supplies.input plan)) fuel := by
  rw [Supplies.run, Plan.bypasses, starts]
  rfl

theorem Supplies.engine_uninterrupted (supplies : Supplies) (plan : Plan) :
    supplies.engine plan.uninterrupted = (supplies.engine plan).clearBreakpoints := by
  rw [supplies.engine_eq, supplies.engine_eq]
  rfl

/-- To go on from breakpoint to breakpoint is to get to the end of the run without breakpoints. -/
theorem exists_goesOnTo {budget rounds : Nat} {outcome : Outcome}
    (chainable : plan.Chainable path) (starts : plan.continueFirst = false)
    (stopped : (supplies.run plan.uninterrupted fuel).outcome? = some outcome)
    (enough : (supplies.run plan.uninterrupted fuel).steps < rounds)
    (budgetEnough : fuel ≤ budget) :
    ∃ last, GoesOnTo budget rounds (supplies.run plan budget)
        (supplies.run plan.uninterrupted fuel).steps last ∧
      last.outcome? = some outcome ∧
      last.engine.machine = (supplies.run plan.uninterrupted fuel).engine.machine ∧
      last.host.output = (supplies.run plan.uninterrupted fuel).host.output := by
  obtain ⟨rounds, rfl⟩ := Nat.exists_eq_succ_of_ne_zero (Nat.ne_zero_of_lt enough)
  have unlimited : (supplies.engine plan).config.stepLimit = none := by
    rw [supplies.config_engine, chainable.engineConfig]
  have plain : supplies.run plan.uninterrupted fuel =
      (supplies.engine plan).clearBreakpoints.run (recorder (supplies.input plan)) fuel := by
    have direct : plan.uninterrupted.continueFirst = false := starts
    rw [supplies.run_of_starts direct, supplies.engine_uninterrupted]
    rfl
  rcases ends : supplies.run plan.uninterrupted fuel with ⟨outcome?, steps, plainLast, plainHost⟩
  rw [ends] at plain stopped enough
  cases stopped
  obtain ⟨stoppedHost, agree, passes⟩ :=
    passesTo_of_resume _ fuel unlimited (BufferedHost.agreesSince_refl _) plain.symm
  have allowed : steps ≤ 0 + rounds := by
    rw [Nat.zero_add]
    exact Nat.le_of_lt_succ enough
  have passed := passes rounds 0 0 budget budget allowed rfl budgetEnough budgetEnough
  obtain ⟨total, ⟨_, _, _, _⟩, goesOn, isFinal⟩ := goesOnTo_of_pass passed rfl
  rw [Nat.zero_add] at isFinal
  cases isFinal
  rw [supplies.run_of_starts starts]
  exact ⟨_, goesOn, rfl, rfl, agree.output⟩

/-- The reports of chained sessions, and the desk that they leave, tell what one session has done:
each of them but the last was stopped by a breakpoint, and the last one was not. -/
structure Repeats (path : String) (earlier : List Report) (final : Report) (chained : Desk)
    (report : Report) (after : Desk) : Prop where
  paused : ∀ session ∈ earlier, ∃ address, session.stop = .suspended (.breakpoint address)
  settled : ∀ address, final.stop ≠ .suspended (.breakpoint address)
  output : chained.output = after.output
  steps : totalSteps (earlier ++ [final]) = report.steps
  stop : final.stop = report.stop
  result : final.result = report.result
  pc : final.pc = report.pc
  saved : ∃ content, chained.files.read path = .ok content ∧ after.files.read path = .ok content

/-- If a session without breakpoints succeeds, then chained sessions with any breakpoints come to
the same end, after at most two sessions more than it has taken steps. -/
theorem chain_repeats_uninterrupted {report : Report} (chainable : plan.Chainable path)
    (starts : plan.continueFirst = false)
    (succeeded : desk.perform (Session.run plan.uninterrupted room fuel) = (.ok report, after)) :
    ∀ rounds budget, report.steps < rounds → fuel ≤ budget →
      ∃ earlier final chained,
        desk.perform (chain plan room budget rounds).run = (.ok (earlier ++ [final]), chained) ∧
          Repeats path earlier final chained report after := by
  intro rounds budget enough budgetEnough
  obtain ⟨supplies, areIn, delivered, leads, fits⟩ := exists_of_run
    chainable.uninterrupted.apart chainable.uninterrupted.untyped succeeded
  rw [delivered.steps] at enough
  obtain ⟨last, goesOn, stopped, machine, output⟩ :=
    exists_goesOnTo chainable starts delivered.stop enough budgetEnough
  have areInPlan : supplies.AreIn desk.files plan := ⟨areIn.image, areIn.machine, areIn.text⟩
  have noInput : (supplies.input plan).pending = [] := by
    rw [areInPlan.input_eq_empty chainable]
    rfl
  have continues : RunContinues #[] (supplies.run plan budget) (supplies.run plan budget) :=
    drive_continues (interchangeable_refl _) ⟨noInput, noInput, Array.empty_append.symm⟩ _ budget
  have printed : printedBytes last.host =
      printedBytes (supplies.run plan.uninterrupted fuel).host := by
    rw [printedBytes, output]
    rfl
  obtain ⟨earlier, final, chained, succeeds, arrives⟩ := exists_arrives goesOn stopped chainable
    ⟨leads.targets, leads.save⟩ areInPlan continues (printed ▸ fits)
  have tells := arrives.tells
  refine ⟨earlier, final, chained, succeeds, arrives.paused, arrives.settled, ?_, ?_, ?_, ?_, ?_,
    _, tells.saved, ?_⟩
  · obtain ⟨more, isMore, isChained⟩ := tells.output
    rw [Array.empty_append] at isMore
    rw [isChained, delivered.output, encode_outputText, ← isMore, output]
  · rw [arrives.steps, delivered.steps]
  · exact Option.some.inj (tells.stop.symm.trans stopped)
  · rw [tells.result, delivered.result, result, result, machine]
  · rw [tells.pc, delivered.pc, machine]
  · rw [delivered.save path chainable.save, machine]

/-- Prints two letters, with a breakpoint at every instruction but the last one. -/
def lettersPlan : Plan :=
  { Plan.plain "letters" with breakpoints := [0, 2, 3], log := some "log", save := some "saved" }

def lettersDesk : Desk :=
  .start ⟨[("letters", [19, 0, 97, 0, 21, 0, 19, 0, 98, 0, 0, 0])]⟩ []

def lettersReport : Report := ⟨.halted 1 .instruction, 3, 1, none, none⟩

/-- Four sessions print what one session prints. -/
theorem chain_repeats_uninterrupted_of_letters :
    lettersPlan.Chainable "saved" ∧ lettersPlan.continueFirst = false ∧
      (lettersDesk.perform (Session.run lettersPlan.uninterrupted none 9)).1 =
        .ok lettersReport ∧
      lettersReport.steps < 4 ∧
      ∃ earlier final chained,
        lettersDesk.perform (chain lettersPlan none 9 4).run =
            (.ok (earlier ++ [final]), chained) ∧
          Repeats "saved" earlier final chained lettersReport
            (lettersDesk.perform (Session.run lettersPlan.uninterrupted none 9)).2 := by
  have differ : lettersPlan.FilesDiffer := by decide +kernel
  have chainable : lettersPlan.Chainable "saved" :=
    ⟨rfl, rfl, rfl, rfl, rfl, differ.writesApart, by decide⟩
  have reported : (lettersDesk.perform (Session.run lettersPlan.uninterrupted none 9)).1 =
      .ok lettersReport :=
    Snapshot.toOption_eq_some_iff.mp (by decide +kernel)
  have succeeded := Prod.eta
    (lettersDesk.perform (Session.run lettersPlan.uninterrupted none 9))
  rw [reported] at succeeded
  exact ⟨chainable, rfl, reported, by decide,
    chain_repeats_uninterrupted chainable rfl succeeded.symm 4 9 (by decide) (Nat.le_refl 9)⟩

end RegisterMachine.Session
