import RegisterMachine.Proofs.BreakpointSets
import RegisterMachine.Proofs.MemoryContent
import RegisterMachine.Proofs.OpcodeTable
import RegisterMachine.Proofs.Session.FirstStep
import RegisterMachine.Proofs.Session.QueuedInput
import RegisterMachine.Proofs.Session.Success
import RegisterMachine.Proofs.Snapshot.VersionGate

/-!
Contract: what a session delivers can be foretold from its plan and its files.

The engine that a session begins with, the input that waits for it and the way
in which it is driven are told here in the terms of the plan: the bytes of the
program, the record of the snapshot, the lines of the input file, the step past
a breakpoint and the steps that remain after it. Nothing of the session itself
goes into it, and there is exactly one run of a buffered host that is foretold.
A session that succeeds has delivered what this run prints, observes and leaves.

Owns: `Plan.Foretells`, and sessions that do as foretold.
Does not own: where the parts of a run are delivered (`Delivered`), and sessions
that read what the user types.
-/

namespace RegisterMachine.Session

open Files Snapshot

/-! ## Before the first cycle -/

/-- The machine with this program at its beginning: the pairs of bytes are its cells. -/
def programView (image : Bytes) : View where
  register _ := 0
  cell := Memory.imageCell? image
  stack := []
  pc := some 0
  result := 0

/-- The machine that a session begins with: that of the snapshot, if the plan names one, and the
program at its beginning otherwise. -/
inductive FirstMachine (files : Files) (plan : Plan) : Machine → Prop where
  | program {image : Bytes} {machine : Machine} (unnamed : plan.state = none)
      (found : files.read plan.program = .ok image) (begins : machine.view = programView image) :
      FirstMachine files plan machine
  | snapshot {path : String} {content : Bytes} {members : List (String × Json.Value)}
      {machine : Machine} (named : plan.state = some path)
      (found : files.read path = .ok content) (document : Json.RecordDocument members content)
      (describes : Describes members machine) : FirstMachine files plan machine

/-- The engine that a session begins with. -/
structure FirstEngine (files : Files) (plan : Plan) (engine : Engine) : Prop where
  machine : FirstMachine files plan engine.machine
  breakpoints : ∀ address, address ∈ engine.breakpoints ↔ address ∈ plan.breakpoints
  config : engine.config = ⟨!plan.disableTrace, plan.maxSteps⟩
  suspension : engine.suspension = none
  /-- Only a machine that is restored can be halted already. -/
  reason : engine.reason = if engine.machine.pc = none then some .restored else none

/-- The lines of the input file, if the plan names one. -/
inductive InputLines (files : Files) (plan : Plan) : List (List Char) → Prop where
  | nothing (unnamed : plan.input = none) : InputLines files plan []
  | file {path text : String} {lines : List (List Char)} (named : plan.input = some path)
      (found : files.read path = .ok (Text.encode text)) (splits : Text.Splits text.toList lines) :
      InputLines files plan lines

/-! ## Driving -/

/-- How a plan has its engine driven, whose limit is that of the plan. It is run, or else makes one
step past a breakpoint and, if that is completed, is run for the steps that remain. -/
inductive Plan.Drives {H : Type} [Host H] (plan : Plan) (engine : Engine) (host : H) (fuel : Nat) :
    Run H → Prop where
  | runs (direct : plan.continueFirst = false ∨ plan.maxSteps = some 0) :
      plan.Drives engine host fuel (engine.run host fuel)
  | goesOn {next last : Engine} {nextHost lastHost : H} {outcome? : Option Outcome} {steps : Nat}
      (continues : plan.continueFirst = true) (allowed : plan.maxSteps ≠ some 0)
      (stepped : engine.step host 0 = ⟨.completed, next, nextHost⟩)
      (rest : (next.withLimit (plan.maxSteps.map (· - 1))).run nextHost fuel =
        ⟨outcome?, steps, last, lastHost⟩) :
      plan.Drives engine host fuel ⟨outcome?, steps + 1, last, lastHost⟩
  | ended {outcome : Outcome} {last : Engine} {lastHost : H}
      (continues : plan.continueFirst = true) (allowed : plan.maxSteps ≠ some 0)
      (stepped : engine.step host 0 = ⟨outcome, last, lastHost⟩)
      (incomplete : outcome ≠ .completed) :
      plan.Drives engine host fuel ⟨some outcome, 0, last, lastHost⟩

/-- The run that a plan and the files it finds foretell: that of the first engine with a buffered
host, for which the lines of the input file and then the texts of the plan wait. -/
def Plan.Foretells (plan : Plan) (files : Files) (fuel : Nat) (run : Run BufferedHost) : Prop :=
  ∃ engine lines, FirstEngine files plan engine ∧ InputLines files plan lines ∧
    plan.Drives engine (⟨inputOf lines plan.send, #[], #[], true⟩ : BufferedHost) fuel run

variable {files : Files} {plan : Plan} {desk after : Desk}

/-! ## Only one run is foretold -/

theorem FirstMachine.unique {machine other : Machine} (first : FirstMachine files plan machine)
    (again : FirstMachine files plan other) : other = machine := by
  cases first with
  | program unnamed found begins =>
      cases again with
      | program _ foundAgain beginsAgain =>
          cases found.symm.trans foundAgain
          exact View.view_injective (beginsAgain.trans begins.symm)
      | snapshot named => cases unnamed.symm.trans named
  | snapshot named found document describes =>
      cases again with
      | program unnamed => cases unnamed.symm.trans named
      | snapshot namedAgain foundAgain documentAgain describesAgain =>
          cases named.symm.trans namedAgain
          cases found.symm.trans foundAgain
          have decoded := decode_eq_ok_iff_describes.mpr ⟨_, document, describes⟩
          have decodedAgain := decode_eq_ok_iff_describes.mpr ⟨_, documentAgain, describesAgain⟩
          exact Except.ok.inj (decodedAgain.symm.trans decoded)

theorem FirstEngine.unique {engine other : Engine} (first : FirstEngine files plan engine)
    (again : FirstEngine files plan other) : other = engine := by
  have machine := first.machine.unique again.machine
  have breakpoints : other.breakpoints = engine.breakpoints := by
    apply Breakpoints.members_inj.mp
    ext address
    rw [Breakpoints.mem_members, Breakpoints.mem_members, first.breakpoints, again.breakpoints]
  have reason := again.reason
  rw [machine, ← first.reason] at reason
  obtain ⟨_, _, _, _, _⟩ := engine
  obtain ⟨_, _, _, _, _⟩ := other
  cases machine
  cases breakpoints
  cases reason
  cases first.config.trans again.config.symm
  cases first.suspension.trans again.suspension.symm
  rfl

theorem InputLines.unique {lines others : List (List Char)} (first : InputLines files plan lines)
    (again : InputLines files plan others) : others = lines := by
  cases first with
  | nothing unnamed =>
      cases again with
      | nothing => rfl
      | file named => cases unnamed.symm.trans named
  | file named found splits =>
      cases again with
      | nothing unnamed => cases unnamed.symm.trans named
      | file namedAgain foundAgain splitsAgain =>
          cases named.symm.trans namedAgain
          have sameText := Text.encode_inj.mp (Except.ok.inj (found.symm.trans foundAgain))
          subst sameText
          rw [Text.splits_iff.mp splits, Text.splits_iff.mp splitsAgain]

theorem Plan.Drives.unique {H : Type} [Host H] {engine : Engine} {host : H} {fuel : Nat}
    {run other : Run H} (drives : plan.Drives engine host fuel run)
    (again : plan.Drives engine host fuel other) : other = run := by
  have indirect (continues : plan.continueFirst = true) (allowed : plan.maxSteps ≠ some 0) :
      ¬ (plan.continueFirst = false ∨ plan.maxSteps = some 0) := by
    simp [continues, allowed]
  cases drives with
  | runs direct =>
      cases again with
      | runs _ => rfl
      | goesOn continues allowed _ _ | ended continues allowed _ _ =>
          exact absurd direct (indirect continues allowed)
  | goesOn continues allowed stepped rest =>
      cases again with
      | runs direct => exact absurd direct (indirect continues allowed)
      | goesOn _ _ steppedAgain restAgain =>
          cases stepped.symm.trans steppedAgain
          cases rest.symm.trans restAgain
          rfl
      | ended _ _ steppedAgain incomplete =>
          cases stepped.symm.trans steppedAgain
          contradiction
  | ended continues allowed stepped incomplete =>
      cases again with
      | runs direct => exact absurd direct (indirect continues allowed)
      | goesOn _ _ steppedAgain _ =>
          cases stepped.symm.trans steppedAgain
          contradiction
      | ended _ _ steppedAgain _ =>
          cases stepped.symm.trans steppedAgain
          rfl

theorem Plan.Foretells.unique {fuel : Nat} {run other : Run BufferedHost}
    (foretells : plan.Foretells files fuel run) (again : plan.Foretells files fuel other) :
    other = run := by
  obtain ⟨engine, lines, isFirst, areLines, drives⟩ := foretells
  obtain ⟨engineAgain, linesAgain, isFirstAgain, areLinesAgain, drivesAgain⟩ := again
  cases isFirst.unique isFirstAgain
  cases areLines.unique areLinesAgain
  exact drives.unique drivesAgain

/-! ## What a session makes of its files -/

theorem read_of_holdsText {path text : String} (holds : HoldsText files path text) :
    files.read path = .ok (Text.encode text) := by
  obtain ⟨content, found, decoded⟩ := holds
  unfold RegisterMachine.decodeText at decoded
  split at decoded
  · next isText =>
      cases decoded
      rw [found, Json.encode_of_fromUTF8? isText]
  · cases decoded

theorem view_fresh (image : Bytes) :
    (Machine.fresh (.ofBytes image)).view = programView image := by
  apply View.ext
  · funext register
    show (Vector.replicate 8 (0 : Word))[register] = 0
    exact Vector.getElem_replicate _
  · funext address
    exact Memory.get?_ofBytes image address
  · rfl
  · rfl
  · rfl

theorem Supplies.AreIn.firstMachine {supplies : Supplies} (areIn : supplies.AreIn files plan)
    (config : EngineConfig) : FirstMachine files plan (supplies.loaded config).machine := by
  have isMachine := areIn.machine
  rw [Supplies.loaded]
  generalize state : plan.state = state? at isMachine
  generalize supplies.machine = machine? at isMachine ⊢
  cases isMachine with
  | none => exact .program state areIn.image (view_fresh supplies.image)
  | some holds =>
      obtain ⟨content, isContent, decoded⟩ := holds
      obtain ⟨members, document, describes⟩ := decode_eq_ok_iff_describes.mp decoded
      exact .snapshot state isContent document describes

theorem Supplies.reason_loaded (supplies : Supplies) (config : EngineConfig) :
    (supplies.loaded config).reason =
      if (supplies.loaded config).machine.pc = none then some .restored else none := by
  rw [loaded]
  cases supplies.machine with
  | none => rfl
  | some machine =>
      show (if machine.isHalted then some HaltReason.restored else none) = _
      simp only [Machine.isHalted, Option.isNone_iff_eq_none]
      rfl

theorem Supplies.AreIn.firstEngine {supplies : Supplies} (areIn : supplies.AreIn files plan) :
    FirstEngine files plan ((supplies.engine plan).withLimit plan.maxSteps) := by
  have config := supplies.config_engine plan
  rw [supplies.engine_eq] at config ⊢
  refine ⟨areIn.firstMachine plan.engineConfig, fun _ => Breakpoints.mem_ofList_iff, ?_, ?_,
    supplies.reason_loaded plan.engineConfig⟩
  · rw [Engine.withLimit, config]
    rfl
  · show (supplies.loaded plan.engineConfig).suspension = none
    rw [Supplies.loaded]
    cases supplies.machine <;> rfl

/-- Without an input file, no line is found, as in an empty text. -/
theorem Supplies.AreIn.inputLines {supplies : Supplies} (areIn : supplies.AreIn files plan) :
    InputLines files plan (Text.linesOf (supplies.text.getD "").toList) := by
  have isText := areIn.text
  generalize input : plan.input = path? at isText
  generalize supplies.text = text? at isText ⊢
  cases isText with
  | none => exact .nothing input
  | some holds => exact .file input (read_of_holdsText holds) (Text.splits_linesOf _)

theorem Supplies.input_eq_inputOf (supplies : Supplies) (plan : Plan) :
    supplies.input plan =
      inputOf (Text.linesOf (supplies.text.getD "").toList) plan.send := by
  have sameCodes : Text.lineCodes = sentCodes := funext lineCodes_eq_sentCodes
  rw [Supplies.input, inputOf, ← flatMap_lineCodes_fileLines, ← sameCodes, ← List.flatMap_append]
  cases supplies.text <;> rfl

/-! ## How a session drives -/

/-- A session lowers the limit of its engine before the first step, and the plan after it. This
shows in the configuration that is left, and nowhere else. -/
theorem exists_drives {H : Type} [Host H] {engine : Engine}
    (limit : engine.config.stepLimit = plan.stepLimit) (host : H) (fuel : Nat) :
    ∃ last : Engine, last.machine = (drive engine host plan.bypasses fuel).engine.machine ∧
      plan.Drives (engine.withLimit plan.maxSteps) host fuel
        { drive engine host plan.bypasses fuel with engine := last } := by
  have stepped : (engine.withLimit plan.maxSteps).step host 0 =
      (engine.cycle host true).mapEngine (·.withLimit plan.maxSteps) :=
    Engine.cycle_withLimit engine plan.maxSteps host true
  have driven := drives engine host plan.bypasses fuel
  generalize drive engine host plan.bypasses fuel = run at driven ⊢
  generalize bypasses : plan.bypasses = bypass at driven
  rw [Plan.stepLimit, bypasses] at limit
  cases driven with
  | obeys =>
      have whole : engine.config.stepLimit = plan.maxSteps := limit
      refine ⟨(engine.run host fuel).engine, rfl, ?_⟩
      rw [Engine.withLimit_eq_self whole]
      exact .runs (Plan.bypasses_eq_false_iff.mp bypasses)
  | @goesOn next nextHost cycled =>
      obtain ⟨continues, allowed⟩ := Plan.bypasses_eq_true_iff.mp bypasses
      have config := (Engine.settings_cycle engine host true).1
      rw [cycled] at config stepped
      have remaining : next.config.stepLimit = plan.maxSteps.map (· - 1) := by
        rw [config]
        exact limit
      refine ⟨(next.run nextHost fuel).engine, rfl, .goesOn continues allowed stepped ?_⟩
      show (next.withLimit (plan.maxSteps.map (· - 1))).run nextHost fuel = _
      rw [Engine.withLimit_eq_self remaining]
  | @ended _ last _ cycled incomplete =>
      obtain ⟨continues, allowed⟩ := Plan.bypasses_eq_true_iff.mp bypasses
      rw [cycled] at stepped
      exact ⟨last.withLimit plan.maxSteps, rfl, .ended continues allowed stepped incomplete⟩

/-! ## What a session delivers -/

/-- Only the machine that is left is delivered. -/
theorem Delivered.withEngine {report : Report} {run : Run BufferedHost} {last : Engine}
    (same : last.machine = run.engine.machine) (delivered : Delivered plan desk after report run) :
    Delivered plan desk after report { run with engine := last } :=
  { delivered with
    save := by
      rw [same]
      exact delivered.save
    result := by
      rw [delivered.result, Engine.result, Engine.result, same]
    pc := by
      rw [delivered.pc, same] }

theorem Supplies.AreIn.exists_foretells {supplies : Supplies}
    (areIn : supplies.AreIn files plan) (fuel : Nat) :
    ∃ last : Engine, last.machine = (supplies.run plan fuel).engine.machine ∧
      plan.Foretells files fuel { supplies.run plan fuel with engine := last } := by
  have limit : (supplies.engine plan).config.stepLimit = plan.stepLimit := by
    rw [supplies.config_engine]
    rfl
  rw [Supplies.run, supplies.input_eq_inputOf]
  obtain ⟨last, same, drives⟩ := exists_drives limit (recorder (inputOf _ plan.send)) fuel
  exact ⟨last, same, _, _, areIn.firstEngine, areIn.inputLines, drives⟩

/-- A session that succeeds without reading what the user types has delivered what the one run that
its plan and its files foretell has printed, observed and left. -/
theorem delivers_buffered_run {room : Option Nat} {fuel : Nat} {report : Report}
    (untyped : plan.readInput = false) (differ : plan.FilesDiffer)
    (succeeded : desk.perform (Session.run plan room fuel) = (.ok report, after)) :
    ∃ run, (∀ other, plan.Foretells desk.files fuel other ↔ other = run) ∧
      Delivered plan desk after report run := by
  obtain ⟨supplies, areIn, delivered, _⟩ := exists_of_run differ.writesApart untyped succeeded
  obtain ⟨last, same, foretells⟩ := areIn.exists_foretells fuel
  refine ⟨_, fun other => ⟨foretells.unique, ?_⟩, delivered.withEngine same⟩
  rintro rfl
  exact foretells

/-- Goes on from a breakpoint at its beginning, echoes one code and stops at the next breakpoint. -/
def echoPlan : Plan :=
  { Plan.plain "echo" with
    input := some "keys", send := ["more"], breakpoints := [4, 0], continueFirst := true,
    maxSteps := some 3, trace := some "trace", log := some "log", save := some "saved" }

/-- A desk with a program that reads and prints one code, a line to be read and an empty one, and a
log. -/
def echoDesk : Desk :=
  .start
    ⟨[("echo", [20, 0, 0, 128, 19, 0, 0, 128, 21, 0]), ("keys", [104, 10, 10]), ("log", [62])]⟩ []

def echoReport : Report :=
  ⟨.suspended (.breakpoint 4), 2, 0, some 4, some "       4 |   noop  [!!]"⟩

theorem delivers_buffered_run_of_echo :
    echoPlan.readInput = false ∧ echoPlan.FilesDiffer ∧
      (echoDesk.perform (Session.run echoPlan none 9)).1 = .ok echoReport ∧
      ∃ run, (∀ other, echoPlan.Foretells echoDesk.files 9 other ↔ other = run) ∧
        Delivered echoPlan echoDesk (echoDesk.perform (Session.run echoPlan none 9)).2 echoReport
          run := by
  have differ : echoPlan.FilesDiffer := by decide +kernel
  have reported : (echoDesk.perform (Session.run echoPlan none 9)).1 = .ok echoReport :=
    Snapshot.toOption_eq_some_iff.mp (by decide +kernel)
  have succeeded := Prod.eta (echoDesk.perform (Session.run echoPlan none 9))
  rw [reported] at succeeded
  exact ⟨rfl, differ, reported, delivers_buffered_run rfl differ succeeded.symm⟩

end RegisterMachine.Session
