import RegisterMachine.Proofs.Json.Spelling
import RegisterMachine.Proofs.Session.Success

/-!
Contract: a session that cannot start leaves nothing behind.

What an engine is made of is read before any file is opened for writing, so an
obstacle there leaves all files as they were. The input is read when log and
trace are open already. The log has been opened for more to be appended, and so
it keeps what it held; but the trace has been emptied. Nothing else is touched,
since machines are saved when a run is over.

Owns: actions that fail, and what keeps a session from starting.
Does not own: sessions that start and fail later.
-/

namespace RegisterMachine.Session

open Files

/-! ## Actions that fail -/

/-- The action fails with this error and leaves this desk behind. -/
def Fails {α : Type} (action : ExceptT Error (StateM Desk) α) (desk : Desk) (error : Error)
    (after : Desk) : Prop :=
  desk.perform action.run = (.error error, after)

section
variable {α β : Type} {desk middle after : Desk} {error : Error}
  {action : ExceptT Error (StateM Desk) α} {next : α → ExceptT Error (StateM Desk) β}

/-- What would come after a failure is not attempted. -/
theorem Fails.bind (fails : Fails action desk error after) :
    Fails (action >>= next) desk error after := by
  unfold Fails at fails ⊢
  rw [perform_run_bind, fails]

theorem fails_bind_of {first : α} (done : Succeeds action desk first middle) :
    Fails (action >>= next) desk error after ↔ Fails (next first) middle error after := by
  unfold Succeeds at done
  unfold Fails
  rw [perform_run_bind, done]

theorem fails_recordAll_bind_iff {events : List Log.Event}
    {next : Unit → ExceptT Error (StateM Desk) β} :
    Fails (recordAll events >>= next) desk error after ↔
      Fails (next ()) { desk with journal := desk.journal ++ events.map Notice.event } error
        after :=
  fails_bind_of (succeeds_recordAll_iff.mpr rfl)

theorem fails_lift_bind_iff {action : StateM Desk α} :
    Fails (liftM action >>= next) desk error after ↔
      Fails (next (desk.perform action).1) (desk.perform action).2 error after := Iff.rfl

theorem fails_throw (error : Error) (desk : Desk) :
    Fails (throw error : ExceptT Error (StateM Desk) α) desk error desk := rfl

theorem fails_readFile {path : String} {reason : FileError}
    (unread : desk.files.read path = .error reason) :
    Fails (readFile path) desk (.file path reason) desk := by
  have reads : desk.perform (Environment.readFile path) = (.error reason, desk) :=
    congrArg (·, desk) unread
  rw [readFile, fails_lift_bind_iff, reads]
  exact fails_throw _ desk

end

variable {plan : Plan} {desk after : Desk} {error : Error} {path : String}

/-! ## Loading -/

/-- What keeps the files of a plan from making up an engine. -/
inductive Obstacle (files : Files) (plan : Plan) : Error → Prop where
  | program {reason : FileError} (unread : files.read plan.program = .error reason) :
      Obstacle files plan (.file plan.program reason)
  | state {image : Bytes} {path : String} {reason : FileError}
      (isImage : files.read plan.program = .ok image) (named : plan.state = some path)
      (unread : files.read path = .error reason) : Obstacle files plan (.file path reason)
  | snapshot {image content : Bytes} {path : String} {reason : SnapshotError}
      (isImage : files.read plan.program = .ok image) (named : plan.state = some path)
      (isContent : files.read path = .ok content)
      (undecodable : Snapshot.decode content = .error reason) :
      Obstacle files plan (.snapshot path reason)

theorem fails_readSnapshot {reason : FileError} (unread : desk.files.read path = .error reason) :
    Fails (readSnapshot path) desk (.file path reason) desk :=
  (fails_readFile unread).bind

theorem exists_fails_readSnapshot {content : Bytes} {reason : SnapshotError}
    (isContent : desk.files.read path = .ok content)
    (undecodable : Snapshot.decode content = .error reason) :
    ∃ journal, Fails (readSnapshot path) desk (.snapshot path reason) { desk with journal } := by
  have reads := succeeds_readFile_iff.mpr ⟨isContent, rfl⟩
  simp only [readSnapshot, fails_bind_of reads, fails_recordAll_bind_iff, undecodable]
  exact ⟨_, fails_throw _ _⟩

/-- Reading the snapshot is what is left of loading when the program has been read. -/
theorem exists_fails_load_of_state {image : Bytes}
    (isImage : desk.files.read plan.program = .ok image) (named : plan.state = some path)
    (fails : ∀ journal, ∃ final,
      Fails (readSnapshot path) { desk with journal } error { desk with journal := final })
    (config : EngineConfig) :
    ∃ journal, Fails (load plan.program plan.state config) desk error { desk with journal } := by
  have reads := succeeds_readFile_iff.mpr ⟨isImage, rfl⟩
  simp only [load, named, fails_bind_of reads, fails_recordAll_bind_iff]
  obtain ⟨final, failsNow⟩ := fails _
  exact ⟨final, failsNow.bind⟩

/-- Whatever the obstacle is, there is only more to be read in the journal. -/
theorem Obstacle.exists_fails_load (obstacle : Obstacle desk.files plan error)
    (config : EngineConfig) :
    ∃ journal, Fails (load plan.program plan.state config) desk error { desk with journal } := by
  cases obstacle with
  | program unread => exact ⟨desk.journal, (fails_readFile unread).bind⟩
  | state isImage named unread =>
      exact exists_fails_load_of_state isImage named
        (fun journal => ⟨journal, fails_readSnapshot unread⟩) config
  | snapshot isImage named isContent undecodable =>
      exact exists_fails_load_of_state isImage named
        (fun _ => exists_fails_readSnapshot isContent undecodable) config

theorem exists_ok_of_no_error {ε α : Type} {result : Except ε α}
    (noError : ∀ error, result ≠ .error error) : ∃ value, result = .ok value := by
  cases result with
  | error error => exact absurd rfl (noError error)
  | ok value => exact ⟨value, rfl⟩

theorem exists_supplies {files : Files} (clear : ∀ error, ¬ Obstacle files plan error) :
    ∃ image machine, files.read plan.program = .ok image ∧
      Option.Rel (HoldsMachine files) plan.state machine := by
  obtain ⟨image, isImage⟩ := exists_ok_of_no_error fun _ unread => clear _ (.program unread)
  cases named : plan.state with
  | none => exact ⟨image, none, isImage, .none⟩
  | some path =>
      obtain ⟨content, isContent⟩ :=
        exists_ok_of_no_error fun _ unread => clear _ (.state isImage named unread)
      obtain ⟨machine, decoded⟩ := exists_ok_of_no_error fun _ undecodable =>
        clear _ (.snapshot isImage named isContent undecodable)
      exact ⟨image, some machine, isImage, .some ⟨content, isContent, decoded⟩⟩

theorem exists_succeeds_load_of_clear (clear : ∀ error, ¬ Obstacle desk.files plan error)
    (config : EngineConfig) :
    ∃ engine journal,
      Succeeds (load plan.program plan.state config) desk engine { desk with journal } := by
  obtain ⟨image, machine, isImage, isMachine⟩ := exists_supplies clear
  -- Loading does not ask for the input, which may well be missing.
  have areIn : Supplies.AreIn ⟨image, machine, none⟩ desk.files { plan with input := none } :=
    ⟨isImage, isMachine, .none⟩
  obtain ⟨loaded, loads, _⟩ := exists_succeeds_load areIn config
  obtain ⟨journal, _, _, _, _, _, isLoaded⟩ := of_succeeds_load loads
  rw [isLoaded] at loads
  exact ⟨_, journal, loads⟩

/-! ## Reading the input -/

/-- Why a file gives no text. -/
inductive GivesNoText (files : Files) (path : String) : FileError → Prop where
  | unread {reason : FileError} (unread : files.read path = .error reason) :
      GivesNoText files path reason
  | notText {content : Bytes} (isContent : files.read path = .ok content)
      (noForm : ∀ text, content ≠ Text.encode text) : GivesNoText files path .notText

theorem decodeText_of_noForm {content : Bytes} (noForm : ∀ text, content ≠ Text.encode text)
    (place : String) : Session.decodeText place content = .error (.file place .notText) := by
  have undecodable : Text.decode? content = none := by
    cases decoded : Text.decode? content with
    | none => rfl
    | some text => exact absurd (Json.encode_of_fromUTF8? decoded).symm (noForm text)
  rw [Session.decodeText, RegisterMachine.decodeText, undecodable]

theorem GivesNoText.fails_linesOfFile {reason : FileError}
    (noText : GivesNoText desk.files path reason) :
    Fails (linesOfFile (some path)) desk (.file path reason) desk := by
  cases noText with
  | unread unread => exact (fails_readFile unread).bind
  | @notText content isContent noForm =>
      have reads := succeeds_readFile_iff.mpr ⟨isContent, rfl⟩
      have decodes : Fails (liftM (Session.decodeText path content)) desk (.file path .notText)
          desk := by
        rw [decodeText_of_noForm noForm]
        exact fails_throw _ desk
      exact (fails_bind_of reads).mpr decodes.bind

/-- A file that is not changed gives no text still, though the reason may be another one. -/
theorem GivesNoText.exists_of_contentAt? {files others : Files} {reason : FileError}
    (noText : GivesNoText files path reason)
    (same : others.contentAt? path = files.contentAt? path) :
    ∃ reason, GivesNoText others path reason := by
  cases noText with
  | unread unread =>
      have nothing : others.contentAt? path = none := by
        rw [same, ← toOption_read, unread]
        rfl
      cases found : others.read path with
      | error other => exact ⟨other, .unread found⟩
      | ok content => cases (read_eq_ok_iff.mp found).symm.trans nothing
  | notText isContent noForm =>
      rw [read_eq_ok_iff, ← same] at isContent
      exact ⟨.notText, .notText (read_eq_ok_iff.mpr isContent) noForm⟩

/-! ## Sessions that do not start -/

/-- The session ends with this error before its engine has attempted a cycle. -/
structure EndsUnstarted (plan : Plan) (desk : Desk) (error : Error) (after : Desk) : Prop where
  /-- Nothing is run, since there is nothing to run until preparing has succeeded. -/
  unprepared : Fails (prepare plan) desk error after
  ends : ∀ room fuel, desk.perform (Session.run plan room fuel) = (.error error, after)
  unprinted : after.output = desk.output

/-- Of all files, only the log and the trace have been opened. -/
structure OnlyOpened (plan : Plan) (desk after : Desk) : Prop where
  log : ∀ path, plan.log = some path →
    after.files.contentAt? path = some ((desk.files.contentAt? path).getD [])
  trace : ∀ path, plan.trace = some path → after.files.contentAt? path = some []
  save : ∀ path, plan.save = some path →
    after.files.contentAt? path = desk.files.contentAt? path
  others : ∀ path, (∀ target opened, plan.file? target = some opened → Apart opened path) →
    after.files.contentAt? path = desk.files.contentAt? path

theorem endsUnstarted_of_fails (unprepared : Fails (prepare plan) desk error after)
    (unprinted : after.output = desk.output) : EndsUnstarted plan desk error after := by
  refine ⟨unprepared, fun room fuel => ?_, unprinted⟩
  unfold Fails at unprepared
  rw [perform_run, unprepared]

theorem onlyOpened_of_spares (apart : plan.WritesApart)
    (holds : Holds plan after (plan.opened desk.files)) (spares : Spares plan desk after) :
    OnlyOpened plan desk after where
  log path named := by
    have held := holds .log path named
    rwa [Plan.opened, named, Option.bind_some] at held
  trace path named := holds .trace path named
  save path named := spares.files path fun target other otherNamed =>
    apart.save target other otherNamed path named
  others := spares.files

/-- The paths of log and trace lead to files, whether or not they exist. -/
def Plan.TargetsLead (plan : Plan) : Prop :=
  ∀ target path, plan.file? target = some path → (name? path).isSome = true

/-- That is when log and trace can be opened. -/
theorem exists_succeeds_openFiles_iff (plan : Plan) (desk : Desk) :
    (∃ after, Succeeds (openFiles plan) desk () after) ↔ plan.TargetsLead := by
  constructor
  · rintro ⟨after, opens⟩ target path named
    obtain ⟨middle, opensLog, opensTrace⟩ := succeeds_openFiles_iff.mp opens
    cases target with
    | log => exact isSome_name?_of_contentAt? (opensLog.contentAt? named)
    | trace => exact isSome_name?_of_contentAt? (opensTrace.contentAt? named)
  · intro lead
    obtain ⟨middle, opensLog⟩ := exists_changes (lead .log) (.append []) desk
    obtain ⟨after, opensTrace⟩ := exists_changes (lead .trace) (.replace []) middle
    exact ⟨after, succeeds_openFiles_iff.mpr ⟨middle, opensLog, opensTrace⟩⟩

/-- A session that is kept from starting by its program or its snapshot ends with the error that
names this file, and has changed none. If these can be loaded, but the input file gives no text,
the session ends with an error that names the input, and has only opened its log and its trace.
In both cases nothing has been printed or run. -/
theorem leaves_nothing_behind (plan : Plan) (desk : Desk) :
    (∀ error, Obstacle desk.files plan error →
      ∃ after, EndsUnstarted plan desk error after ∧ after.files = desk.files) ∧
    (plan.FilesDiffer → (∀ error, ¬ Obstacle desk.files plan error) → plan.TargetsLead →
      ∀ path reason, plan.input = some path → GivesNoText desk.files path reason →
        ∃ given after, GivesNoText after.files path given ∧
          EndsUnstarted plan desk (.file path given) after ∧ OnlyOpened plan desk after) := by
  constructor
  · intro error obstacle
    obtain ⟨journal, fails⟩ := obstacle.exists_fails_load plan.engineConfig
    exact ⟨_, endsUnstarted_of_fails fails.bind rfl, rfl⟩
  · intro differ clear lead path reason named noText
    have apart := differ.writesApart
    obtain ⟨engine, journal, loads⟩ := exists_succeeds_load_of_clear clear plan.engineConfig
    obtain ⟨opened, opens⟩ := (exists_succeeds_openFiles_iff plan { desk with journal }).mpr lead
    obtain ⟨holds, spares⟩ := of_succeeds_openFiles apart.targets opens
    obtain ⟨given, noTextNow⟩ := noText.exists_of_contentAt? (spares.files path
      fun target other otherNamed => apart.input target other otherNamed path named)
    have queues : Fails (queueInput plan) opened (.file path given) opened := by
      rw [queueInput, named]
      exact noTextNow.fails_linesOfFile.bind
    have prepares : Fails (prepare plan) desk (.file path given) opened := by
      rw [prepare, fails_bind_of loads, fails_bind_of opens]
      exact queues.bind
    exact ⟨given, opened, noTextNow, endsUnstarted_of_fails prepares spares.output,
      onlyOpened_of_spares apart holds ⟨spares.output, spares.files⟩⟩

/-- Would read its input, and names all files that a session can open. -/
def illegiblePlan : Plan :=
  { Plan.plain "idle" with
    input := some "keys", log := some "log", trace := some "trace", save := some "saved" }

/-- The same plan with a snapshot to be restored. -/
def obstructedPlan : Plan := { illegiblePlan with state := some "state" }

/-- A desk with a program, an input that is not UTF-8, a log, and a snapshot that is empty. -/
def illegibleDesk : Desk :=
  .start ⟨[("idle", [21, 0]), ("keys", [255]), ("log", [62]), ("state", [])]⟩ []

theorem leaves_nothing_behind_of_illegible :
    (∃ error, Obstacle illegibleDesk.files obstructedPlan error ∧
      ∃ after, EndsUnstarted obstructedPlan illegibleDesk error after ∧
        after.files = illegibleDesk.files) ∧
      illegiblePlan.FilesDiffer ∧ (∀ error, ¬ Obstacle illegibleDesk.files illegiblePlan error) ∧
      illegiblePlan.TargetsLead ∧ illegiblePlan.input = some "keys" ∧
      GivesNoText illegibleDesk.files "keys" .notText ∧
      ∃ given after, GivesNoText after.files "keys" given ∧
        EndsUnstarted illegiblePlan illegibleDesk (.file "keys" given) after ∧
          OnlyOpened illegiblePlan illegibleDesk after := by
  have isImage : illegibleDesk.files.read "idle" = .ok [21, 0] := by decide
  have differ : illegiblePlan.FilesDiffer := by decide +kernel
  have clear : ∀ error, ¬ Obstacle illegibleDesk.files illegiblePlan error := by
    intro error obstacle
    cases obstacle with
    | program unread => cases isImage.symm.trans unread
    | state _ named => cases named
    | snapshot _ named => cases named
  have lead : illegiblePlan.TargetsLead := by
    intro target path named
    cases target <;> cases named <;> decide
  have noText : GivesNoText illegibleDesk.files "keys" .notText := by
    have isContent : illegibleDesk.files.read "keys" = .ok [255] := by decide
    refine .notText isContent fun text isText => ?_
    have undecodable : Text.decode? [255] = none := by decide
    rw [isText, Text.decode?_encode] at undecodable
    cases undecodable
  have obstructed : ∃ error, Obstacle illegibleDesk.files obstructedPlan error := by
    have undecodable : (Snapshot.decode []).toOption = none := by decide +kernel
    cases decoded : Snapshot.decode [] with
    | error reason => exact ⟨_, .snapshot isImage rfl (by decide) decoded⟩
    | ok machine => cases (congrArg Except.toOption decoded).symm.trans undecodable
  obtain ⟨error, obstacle⟩ := obstructed
  exact ⟨⟨error, obstacle, (leaves_nothing_behind obstructedPlan illegibleDesk).1 error obstacle⟩,
    differ, clear, lead, rfl, noText,
    (leaves_nothing_behind illegiblePlan illegibleDesk).2 differ clear lead "keys" .notText rfl
      noText⟩

end RegisterMachine.Session
