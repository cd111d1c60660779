import RegisterMachine.Proofs.Session.Delivery

/-!
Contract: what each phase of a session does to a desk.

Loading and queueing only read, opening and saving only change the files that
are named for it, and concluding prints and writes what the run has left. A
session that names different files for different purposes reads what was there
before it began.

Owns: what a session reads, and its phases when they succeed.
Does not own: the run between them (`Proofs.Session.Mirroring`).
-/

namespace RegisterMachine.Session

open Files

/-! ## The files of a plan -/

namespace Plan

/-- The paths that a plan names, each for a purpose of its own. -/
def paths (plan : Plan) : List String :=
  plan.program :: (plan.state.toList ++ plan.input.toList ++ plan.log.toList ++
    plan.trace.toList ++ plan.save.toList)

/-- The plan names a different file for each purpose. -/
def FilesDiffer (plan : Plan) : Prop := (plan.paths.filterMap Files.name?).Nodup

instance (plan : Plan) : Decidable plan.FilesDiffer :=
  inferInstanceAs (Decidable (plan.paths.filterMap Files.name?).Nodup)

/-- The files that are written differ from each other and from the input file. -/
structure WritesApart (plan : Plan) : Prop where
  targets : TargetsApart plan
  input : ∀ target path, plan.file? target = some path → ∀ other, plan.input = some other →
    Apart path other
  save : ∀ target path, plan.file? target = some path → ∀ other, plan.save = some other →
    Apart path other

theorem FilesDiffer.writesApart {plan : Plan} (differ : plan.FilesDiffer) : plan.WritesApart := by
  have pairwise : plan.paths.Pairwise Apart := List.pairwise_filterMap.mp differ
  simp only [paths, List.pairwise_cons, List.pairwise_append, List.mem_append,
    Option.mem_toList] at pairwise
  obtain ⟨_, ⟨⟨⟨_, _, beforeLog⟩, _, beforeTrace⟩, _, beforeSave⟩⟩ := pairwise
  have logTrace := fun path named => beforeTrace path (.inr named)
  refine ⟨?_, ?_, ?_⟩
  · intro target path named other otherPath otherNamed different
    cases target <;> cases other
    · exact absurd rfl different
    · exact logTrace path named otherPath otherNamed
    · exact (logTrace otherPath otherNamed path named).symm
    · exact absurd rfl different
  · intro target path named other otherNamed
    cases target with
    | log => exact (beforeLog other (.inr otherNamed) path named).symm
    | trace => exact (beforeTrace other (.inl (.inr otherNamed)) path named).symm
  · intro target path named other otherNamed
    cases target with
    | log => exact beforeSave path (.inl (.inr named)) other otherNamed
    | trace => exact beforeSave path (.inr named) other otherNamed

/-- What the file of a target holds when it has been opened. -/
def opened (plan : Plan) (files : Files) : Target → Bytes
  | .log => (plan.log.bind files.contentAt?).getD []
  | .trace => []

end Plan

/-! ## What a session reads -/

/-- The file holds a snapshot of this machine. -/
def HoldsMachine (files : Files) (path : String) (machine : Machine) : Prop :=
  ∃ content, files.read path = .ok content ∧ Snapshot.decode content = .ok machine

/-- The file holds this text. -/
def HoldsText (files : Files) (path : String) (text : String) : Prop :=
  ∃ content, files.read path = .ok content ∧ RegisterMachine.decodeText content = .ok text

/-- What a session reads before it runs. -/
structure Supplies where
  image : Bytes
  /-- The machine of the snapshot, if there is one. -/
  machine : Option Machine
  /-- The text of the input file, if there is one. -/
  text : Option String

namespace Supplies

/-- The files of a plan hold these supplies. -/
structure AreIn (supplies : Supplies) (files : Files) (plan : Plan) : Prop where
  image : files.read plan.program = .ok supplies.image
  machine : Option.Rel (HoldsMachine files) plan.state supplies.machine
  text : Option.Rel (HoldsText files) plan.input supplies.text

/-- The engine with the program, and with the machine of the snapshot in its place. -/
def loaded (supplies : Supplies) (config : EngineConfig) : Engine :=
  let engine := Engine.fresh (.ofBytes supplies.image) config
  match supplies.machine with
  | none => engine
  | some machine => engine.restore machine

/-- The engine with its breakpoints. -/
def engine (supplies : Supplies) (plan : Plan) : Engine :=
  setBreakpoints (supplies.loaded plan.engineConfig) plan.breakpoints

/-- The lines of the input file, and after them those of the plan. -/
def input (supplies : Supplies) (plan : Plan) : InputQueue :=
  InputQueue.empty.pushLines (supplies.text.elim [] fileLines ++ plan.send)

end Supplies

variable {plan : Plan} {desk after : Desk}

theorem of_succeeds_readSnapshot {path : String} {machine : Machine}
    (done : Succeeds (readSnapshot path) desk machine after) :
    ∃ journal, HoldsMachine desk.files path machine ∧ after = { desk with journal } := by
  obtain ⟨content, middle, reads, rest⟩ := succeeds_bind_iff.mp done
  obtain ⟨found, isMiddle⟩ := succeeds_readFile_iff.mp reads
  obtain ⟨_, noted, records, last⟩ := succeeds_bind_iff.mp rest
  rw [succeeds_recordAll_iff, isMiddle] at records
  cases decoded : Snapshot.decode content with
  | error error =>
      simp only [decoded] at last
      exact absurd last not_succeeds_throw
  | ok machine =>
      simp only [decoded] at last
      obtain ⟨rfl, rfl⟩ := succeeds_pure_iff.mp last
      exact ⟨_, ⟨content, found, decoded⟩, records⟩

theorem of_succeeds_load {state : Option String} {program : String} {config : EngineConfig}
    {engine : Engine} (done : Succeeds (load program state config) desk engine after) :
    ∃ journal image machine, desk.files.read program = .ok image ∧
      Option.Rel (HoldsMachine desk.files) state machine ∧
      engine = Supplies.loaded ⟨image, machine, none⟩ config ∧ after = { desk with journal } := by
  obtain ⟨image, middle, reads, rest⟩ := succeeds_bind_iff.mp done
  obtain ⟨found, isMiddle⟩ := succeeds_readFile_iff.mp reads
  obtain ⟨_, noted, records, last⟩ := succeeds_bind_iff.mp rest
  rw [succeeds_recordAll_iff, isMiddle] at records
  cases state with
  | none =>
      obtain ⟨rfl, rfl⟩ := succeeds_pure_iff.mp last
      exact ⟨_, image, none, found, .none, rfl, records⟩
  | some path =>
      obtain ⟨machine, restored, reads, rest⟩ := succeeds_bind_iff.mp last
      obtain ⟨journal, held, isRestored⟩ := of_succeeds_readSnapshot reads
      obtain ⟨_, final, recorded, last⟩ := succeeds_bind_iff.mp rest
      rw [succeeds_recordAll_iff, isRestored, records] at recorded
      obtain ⟨rfl, rfl⟩ := succeeds_pure_iff.mp last
      rw [records] at held
      exact ⟨_, image, some machine, found, .some held, rfl, recorded⟩

/-! ## Opening -/

theorem succeeds_changeNamed_iff {path? : Option String} {change : FileChange} :
    Succeeds (match path? with
      | some path => changeFile path change
      | none => pure ()) desk () after ↔ Changes path? change desk after := by
  cases path? with
  | some path => exact succeeds_changeFile_iff
  | none =>
      constructor
      · intro done
        exact .nothing rfl (succeeds_pure_iff.mp done).2
      · intro changes
        cases changes with
        | nothing _ same => exact succeeds_pure_iff.mpr ⟨rfl, same⟩
        | made named _ _ => cases named

theorem succeeds_openFiles_iff :
    Succeeds (openFiles plan) desk () after ↔
      ∃ middle, Changes plan.log (.append []) desk middle ∧
        Changes plan.trace (.replace []) middle after := by
  simp only [← succeeds_changeNamed_iff]
  unfold openFiles
  cases plan.log with
  | none =>
      constructor
      · intro done
        exact ⟨desk, succeeds_pure_iff.mpr ⟨rfl, rfl⟩, done⟩
      · rintro ⟨middle, same, done⟩
        rwa [(succeeds_pure_iff.mp same).2] at done
  | some path =>
      rw [succeeds_bind_iff]
      exact ⟨fun ⟨_, middle, opened, done⟩ => ⟨middle, opened, done⟩,
        fun ⟨middle, opened, done⟩ => ⟨(), middle, opened, done⟩⟩

/-- Opening keeps what the log holds and empties the trace. -/
theorem of_succeeds_openFiles (apart : TargetsApart plan)
    (done : Succeeds (openFiles plan) desk () after) :
    Holds plan after (plan.opened desk.files) ∧ Spares plan desk after := by
  obtain ⟨middle, opensLog, opensTrace⟩ := succeeds_openFiles_iff.mp done
  refine ⟨?_, opensTrace.output.trans opensLog.output, ?_⟩
  · intro target path named
    cases target with
    | log =>
        have isLog : plan.log = some path := named
        have untouched := opensTrace.contentAt?_apart fun other otherNamed =>
          apart .trace other otherNamed .log path named nofun
        rw [untouched, opensLog.contentAt? named, Plan.opened, isLog]
        exact congrArg some (List.append_nil _)
    | trace => exact opensTrace.contentAt? named
  · intro other others
    rw [opensTrace.contentAt?_apart (others .trace), opensLog.contentAt?_apart (others .log)]

/-! ## Queueing -/

theorem succeeds_lift_iff {α : Type} {result : Except Error α} {value : α} :
    Succeeds (liftM result) desk value after ↔ result = .ok value ∧ after = desk := by
  cases result with
  | error error => exact ⟨nofun, nofun⟩
  | ok found =>
      have unfolds : Succeeds (liftM (.ok found : Except Error α)) desk value after ↔
          Succeeds (pure found) desk value after := Iff.rfl
      rw [unfolds]
      simp [eq_comm]

theorem decodeText_eq_ok_iff {place : String} {content : Bytes} {text : String} :
    Session.decodeText place content = .ok text ↔
      RegisterMachine.decodeText content = .ok text := by
  unfold Session.decodeText
  cases RegisterMachine.decodeText content <;> simp

theorem of_succeeds_linesOfFile {path? : Option String} {lines : List String}
    (done : Succeeds (linesOfFile path?) desk lines after) :
    ∃ text : Option String, Option.Rel (HoldsText desk.files) path? text ∧
      lines = text.elim [] fileLines ∧ after = desk := by
  cases path? with
  | none =>
      obtain ⟨rfl, rfl⟩ := succeeds_pure_iff.mp done
      exact ⟨none, .none, rfl, rfl⟩
  | some path =>
      obtain ⟨content, middle, reads, rest⟩ := succeeds_bind_iff.mp done
      obtain ⟨found, isMiddle⟩ := succeeds_readFile_iff.mp reads
      obtain ⟨text, final, decodes, last⟩ := succeeds_bind_iff.mp rest
      obtain ⟨decoded, isFinal⟩ := succeeds_lift_iff.mp decodes
      obtain ⟨rfl, isAfter⟩ := succeeds_pure_iff.mp last
      refine ⟨some text, .some ⟨content, found, decodeText_eq_ok_iff.mp decoded⟩, rfl, ?_⟩
      rw [isAfter, isFinal, isMiddle]

/-- The input is the lines of the file and those of the plan, as nothing is typed. -/
theorem of_succeeds_queueInput {input : InputQueue} (untyped : plan.readInput = false)
    (done : Succeeds (queueInput plan) desk input after) :
    ∃ text : Option String, Option.Rel (HoldsText desk.files) plan.input text ∧
      input = InputQueue.empty.pushLines (text.elim [] fileLines ++ plan.send) ∧ after = desk := by
  obtain ⟨lines, middle, fromFile, rest⟩ := succeeds_bind_iff.mp done
  obtain ⟨text, found, rfl, rfl⟩ := of_succeeds_linesOfFile fromFile
  obtain ⟨typed, final, types, last⟩ := succeeds_bind_iff.mp rest
  rw [untyped] at types
  obtain ⟨rfl, rfl⟩ := succeeds_pure_iff.mp types
  obtain ⟨rfl, rfl⟩ := succeeds_pure_iff.mp last
  refine ⟨text, found, ?_, rfl⟩
  rw [List.append_nil]

/-! ## Preparing -/

/-- Files that are not changed in between are read as they were. -/
theorem HoldsText.congr {files others : Files} {path text : String}
    (same : others.contentAt? path = files.contentAt? path) (holds : HoldsText others path text) :
    HoldsText files path text := by
  obtain ⟨content, found, decoded⟩ := holds
  rw [read_eq_ok_iff, same] at found
  exact ⟨content, read_eq_ok_iff.mpr found, decoded⟩

theorem of_succeeds_prepare {engine : Engine} {input : InputQueue}
    (untyped : plan.readInput = false) (apart : plan.WritesApart)
    (done : Succeeds (prepare plan) desk (engine, input) after) :
    ∃ supplies : Supplies, supplies.AreIn desk.files plan ∧ engine = supplies.engine plan ∧
      input = supplies.input plan ∧ Holds plan after (plan.opened desk.files) ∧
      Spares plan desk after := by
  obtain ⟨loaded, ready, loads, afterLoading⟩ := succeeds_bind_iff.mp done
  obtain ⟨journal, image, machine, isImage, isMachine, rfl, rfl⟩ := of_succeeds_load loads
  obtain ⟨_, opened, opens, afterOpening⟩ := succeeds_bind_iff.mp afterLoading
  obtain ⟨holds, spares⟩ := of_succeeds_openFiles apart.targets opens
  obtain ⟨queued, ended, queues, afterQueueing⟩ := succeeds_bind_iff.mp afterOpening
  obtain ⟨text, isText, isQueued, rfl⟩ := of_succeeds_queueInput untyped queues
  obtain ⟨_, noted, records, last⟩ := succeeds_bind_iff.mp afterQueueing
  have isNoted := succeeds_recordAll_iff.mp records
  obtain ⟨isResult, isAfter⟩ := succeeds_pure_iff.mp last
  cases isResult
  rw [isAfter, isNoted]
  -- Log and trace are opened before the input is read, so their files must not be its file.
  have unchanged : ∀ path, plan.input = some path →
      ended.files.contentAt? path = desk.files.contentAt? path := by
    intro path named
    exact spares.files path fun target other otherNamed =>
      apart.input target other otherNamed path named
  refine ⟨⟨image, machine, text⟩, ⟨isImage, isMachine, ?_⟩, rfl, isQueued, holds,
    spares.output, spares.files⟩
  cases input? : plan.input with
  | none =>
      rw [input?] at isText
      cases isText
      exact .none
  | some path =>
      rw [input?] at isText
      cases isText with
      | some held => exact .some (held.congr (unchanged path input?))

/-! ## Concluding -/

theorem of_succeeds_save {machine : Machine} {path? : Option String}
    (done : Succeeds (save machine path?) desk () after) :
    ∃ final, Changes path? (.replace (Snapshot.encode machine)) desk final ∧
      after.files = final.files ∧ after.output = final.output := by
  cases path? with
  | none =>
      obtain ⟨_, rfl⟩ := succeeds_pure_iff.mp done
      exact ⟨_, .nothing rfl rfl, rfl, rfl⟩
  | some path =>
      obtain ⟨_, noted, records, rest⟩ := succeeds_bind_iff.mp done
      rw [succeeds_recordAll_iff] at records
      obtain ⟨_, changed, changes, last⟩ := succeeds_bind_iff.mp rest
      rw [succeeds_changeFile_iff, records] at changes
      rw [succeeds_recordAll_iff] at last
      cases changes with
      | nothing unnamed _ => cases unnamed
      | made named modified left =>
          refine ⟨_, .made named modified rfl, ?_⟩
          rw [last, left]
          exact ⟨rfl, rfl⟩

theorem settle_eq_ok_iff {run : Run Console} {saved : Except Error Unit}
    {written : List (Except OutputError Unit)} {report : Report} :
    settle run saved written = .ok report ↔
      ∃ stop, run.outcome? = some stop ∧ saved = .ok () ∧
        (∀ attempt ∈ written, attempt.isOk = true) ∧ report = reportOf stop run := by
  have allAccepted : (written.find? fun attempt => !attempt.isOk) = none ↔
      ∀ attempt ∈ written, attempt.isOk = true := by
    simp only [List.find?_eq_none, Bool.not_eq_true, Bool.not_eq_false']
  unfold settle
  rw [← allAccepted]
  cases run.outcome? with
  | none => simp
  | some stop =>
      cases saved with
      | error error => simp
      | ok _ =>
          cases found : written.find? fun attempt => !attempt.isOk with
          | none => simp [eq_comm]
          | some attempt =>
              cases attempt with
              | error error => simp
              | ok _ => cases List.find?_some found

/-- The desk after the output of a run has been printed. -/
def printed (desk : Desk) (run : Run Console) : Desk :=
  { desk with output := desk.output ++ run.host.sink.kept.toList }

/-- What has been written to the targets in the course of a run. -/
def outboxOf (plan : Plan) (run : Run Console) : Outbox :=
  .ofRecord (plan.written run.host.record)

theorem perform_conclude (desk : Desk) (run : Run Console) :
    desk.perform (conclude plan run) =
      match (printed desk run).perform (writeAll plan (outboxOf plan run).changesDuring) with
      | (during, ran) =>
          match ran.perform (save run.engine.machine plan.save).run with
          | (saved, kept) =>
              match kept.perform (writeAll plan (outboxOf plan run).changesAfter) with
              | (rest, after) =>
                  (settle run saved (run.host.refusal :: (during ++ rest)), after) := rfl

theorem refusedAt_of_refusal {console : Console} (accepted : console.refusal.isOk = true) :
    console.sink.refusedAt = none := by
  unfold Console.refusal at accepted
  split at accepted
  · cases accepted
  · assumption

/-- A session has a report if its run has an outcome and everything that follows succeeds. -/
theorem exists_of_conclude {run : Run Console} {report : Report}
    (done : desk.perform (conclude plan run) = (.ok report, after)) :
    ∃ ran kept, Accepts plan (outboxOf plan run).changesDuring (printed desk run) ran ∧
      Succeeds (save run.engine.machine plan.save) ran () kept ∧
      Accepts plan (outboxOf plan run).changesAfter kept after ∧
      run.host.sink.refusedAt = none ∧
      ∃ stop, run.outcome? = some stop ∧ report = reportOf stop run := by
  rw [perform_conclude] at done
  rcases duringEq :
    (printed desk run).perform (writeAll plan (outboxOf plan run).changesDuring) with ⟨during, ran⟩
  rcases savedEq : ran.perform (save run.engine.machine plan.save).run with ⟨saved, kept⟩
  rcases restEq : kept.perform (writeAll plan (outboxOf plan run).changesAfter) with ⟨rest, final⟩
  simp only [duringEq, savedEq, restEq] at done
  obtain ⟨settled, rfl⟩ := Prod.mk.inj done
  obtain ⟨stop, stopped, rfl, allOk, isReport⟩ := settle_eq_ok_iff.mp settled
  obtain ⟨unrefused, written⟩ := List.forall_mem_cons.mp allOk
  obtain ⟨duringOk, restOk⟩ := List.forall_mem_append.mp written
  exact ⟨ran, kept, ⟨during, duringEq, duringOk⟩, savedEq, ⟨rest, restEq, restOk⟩,
    refusedAt_of_refusal unrefused, stop, stopped, isReport⟩

/-- What a session that has a report has left at a desk whose targets held these texts. -/
structure Concluded (plan : Plan) (texts : Target → Bytes) (run : Run Console) (desk after : Desk)
    (report : Report) : Prop where
  accepted : run.host.sink.refusedAt = none
  report : ∃ stop, run.outcome? = some stop ∧ report = reportOf stop run
  output : after.output = desk.output ++ run.host.sink.kept.toList
  targets : Holds plan after fun target => texts target ++ (outboxOf plan run).total target
  saved : ∀ path, plan.save = some path →
    after.files.contentAt? path = some (Snapshot.encode run.engine.machine)

theorem concluded_of_perform {texts : Target → Bytes} {run : Run Console} {report : Report}
    (apart : plan.WritesApart) (holds : Holds plan desk texts) (fresh : texts .trace = [])
    (done : desk.perform (conclude plan run) = (.ok report, after)) :
    Concluded plan texts run desk after report := by
  obtain ⟨ran, kept, during, saves, rest, accepted, reported⟩ := exists_of_conclude done
  obtain ⟨changed, changes, sameFiles, sameOutput⟩ := of_succeeds_save saves
  have holdsPrinted : Holds plan (printed desk run) texts := holds
  have holdsRan := during.holds_changesOf apart.targets holdsPrinted fresh
  have holdsKept := @Holds.congr plan ran kept _ holdsRan fun target path named => by
    rw [sameFiles, changes.contentAt?_apart fun other otherNamed =>
      (apart.save target path named other otherNamed).symm]
  refine ⟨accepted, reported, ?_, rest.holds_changesAfter apart.targets holdsKept fresh, ?_⟩
  · rw [rest.spares.output, sameOutput, changes.output, during.spares.output]
    rfl
  · intro path named
    rw [rest.spares.files path fun target other otherNamed =>
      apart.save target other otherNamed path named, sameFiles, changes.contentAt? named]
    rfl

end RegisterMachine.Session
