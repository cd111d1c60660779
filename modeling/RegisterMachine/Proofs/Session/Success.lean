import RegisterMachine.Proofs.Session.Batch

/-!
Contract: when a session succeeds.

A session without input succeeds if its program can be read, the file that it
goes on from holds a machine, the paths that it writes to lead to files, the
run stops, and the output has room for what is printed. Nothing that it does
removes a file, so what could be read before can be read afterwards.

Owns: sufficient conditions of success, and what they say about a session that
has succeeded.
Does not own: what a session delivers (`Proofs.Session.Batch`).
-/

namespace RegisterMachine.Session

open Files

/-- Every file that was there is still there. -/
def Retains (desk after : Desk) : Prop :=
  ∀ path, (desk.files.contentAt? path).isSome = true → (after.files.contentAt? path).isSome = true

/-- The paths that a plan writes to lead to files, whether or not they exist. -/
structure Plan.Leads (plan : Plan) : Prop where
  targets : ∀ target path, plan.file? target = some path → (name? path).isSome = true
  save : ∀ path, plan.save = some path → (name? path).isSome = true

variable {plan : Plan} {desk middle after : Desk}

theorem retains_of_files (same : after.files = desk.files) : Retains desk after := by
  intro path found
  rwa [same]

theorem Retains.trans (first : Retains desk middle) (later : Retains middle after) :
    Retains desk after :=
  fun path found => later path (first path found)

theorem isSome_name?_of_contentAt? {files : Files} {path : String} {content : Bytes}
    (holds : files.contentAt? path = some content) : (name? path).isSome = true := by
  obtain ⟨name, leads, _⟩ := Option.bind_eq_some_iff.mp holds
  rw [leads]
  rfl

/-! ## Changes -/

theorem exists_changes {path? : Option String}
    (leads : ∀ path, path? = some path → (name? path).isSome = true) (change : FileChange)
    (desk : Desk) : ∃ after, Changes path? change desk after := by
  cases path? with
  | none => exact ⟨desk, .nothing rfl rfl⟩
  | some path =>
      obtain ⟨name, isName⟩ := Option.isSome_iff_exists.mp (leads path rfl)
      exact ⟨_, .made rfl (modify_eq_ok_iff.mpr ⟨name, isName, rfl⟩) rfl⟩

theorem Changes.retains {path? : Option String} {change : FileChange}
    (changes : Changes path? change desk after) : Retains desk after := by
  cases changes with
  | nothing _ same => exact retains_of_files (congrArg Desk.files same)
  | made _ modified left =>
      obtain ⟨name, _, isAfter⟩ := modify_eq_ok_iff.mp modified
      intro path found
      rw [left, isAfter]
      unfold Files.contentAt? at found ⊢
      cases leads : name? path with
      | none =>
          rw [leads] at found
          cases found
      | some other =>
          rw [leads] at found
          rw [Option.bind_some, content?_set]
          split
          · rfl
          · exact found

theorem exists_accepts (leads : plan.Leads) (changes : List (Target × FileChange)) (desk : Desk) :
    ∃ after, Accepts plan changes desk after ∧ Retains desk after := by
  induction changes generalizing desk with
  | nil => exact ⟨desk, accepts_nil_iff.mpr rfl, retains_of_files rfl⟩
  | cons first rest inductionHypothesis =>
      obtain ⟨middle, changed⟩ := exists_changes (leads.targets first.1) first.2 desk
      obtain ⟨after, accepts, retains⟩ := inductionHypothesis middle
      exact ⟨after, accepts_cons_iff.mpr ⟨middle, writes_iff.mpr changed, accepts⟩,
        changed.retains.trans retains⟩

/-! ## Preparing -/

section
variable {α β : Type} {value : β}

theorem succeeds_bind_of {action : ExceptT Error (StateM Desk) α}
    {next : α → ExceptT Error (StateM Desk) β} {first : α}
    (done : Succeeds action desk first middle) :
    Succeeds (action >>= next) desk value after ↔ Succeeds (next first) middle value after := by
  rw [succeeds_bind_iff]
  constructor
  · rintro ⟨other, otherDesk, again, rest⟩
    cases done.symm.trans again
    exact rest
  · intro rest
    exact ⟨first, middle, done, rest⟩

theorem succeeds_recordAll_bind_iff {events : List Log.Event}
    {next : Unit → ExceptT Error (StateM Desk) β} :
    Succeeds (recordAll events >>= next) desk value after ↔
      Succeeds (next ()) { desk with journal := desk.journal ++ events.map Notice.event } value
        after :=
  succeeds_bind_of (succeeds_recordAll_iff.mpr rfl)

end

theorem exists_succeeds_readSnapshot {path : String} {machine : Machine}
    (holds : HoldsMachine desk.files path machine) :
    ∃ after, Succeeds (readSnapshot path) desk machine after ∧ after.files = desk.files := by
  obtain ⟨content, found, decoded⟩ := holds
  have reads := succeeds_readFile_iff.mpr ⟨found, rfl⟩
  simp only [readSnapshot, succeeds_bind_of reads, succeeds_recordAll_bind_iff, decoded,
    succeeds_pure_iff, true_and, exists_eq_left]

theorem exists_succeeds_load {supplies : Supplies} (areIn : supplies.AreIn desk.files plan)
    (config : EngineConfig) :
    ∃ after, Succeeds (load plan.program plan.state config) desk (supplies.loaded config) after ∧
      after.files = desk.files := by
  obtain ⟨image, machine, text⟩ := supplies
  have reads := succeeds_readFile_iff.mpr ⟨areIn.image, rfl⟩
  have isMachine := areIn.machine
  simp only [load, succeeds_bind_of reads, succeeds_recordAll_bind_iff]
  cases state : plan.state with
  | none =>
      rw [state] at isMachine
      cases isMachine
      exact ⟨_, succeeds_pure_iff.mpr ⟨rfl, rfl⟩, rfl⟩
  | some path =>
      rw [state] at isMachine
      cases isMachine with
      | some holds =>
          -- The records of the program come first, and leave the files alone.
          generalize noted : desk.journal ++ _ = journal
          have held : HoldsMachine { desk with journal : Desk }.files path _ := holds
          obtain ⟨restored, readsMachine, sameFiles⟩ := exists_succeeds_readSnapshot held
          simp only [succeeds_bind_of readsMachine, succeeds_recordAll_bind_iff]
          exact ⟨_, succeeds_pure_iff.mpr ⟨rfl, rfl⟩, sameFiles⟩

theorem exists_succeeds_openFiles (leads : plan.Leads) (desk : Desk) :
    ∃ after, Succeeds (openFiles plan) desk () after ∧ Retains desk after := by
  obtain ⟨middle, opensLog⟩ := exists_changes (leads.targets .log) (.append []) desk
  obtain ⟨after, opensTrace⟩ := exists_changes (leads.targets .trace) (.replace []) middle
  exact ⟨after, succeeds_openFiles_iff.mpr ⟨middle, opensLog, opensTrace⟩,
    opensLog.retains.trans opensTrace.retains⟩

theorem succeeds_queueInput (nothing : plan.input = none) (untyped : plan.readInput = false)
    (desk : Desk) :
    Succeeds (queueInput plan) desk (InputQueue.empty.pushLines plan.send) desk := by
  refine succeeds_bind_iff.mpr ⟨[], desk, ?_, succeeds_bind_iff.mpr ⟨[], desk, ?_, ?_⟩⟩
  · rw [nothing]
    exact succeeds_pure_iff.mpr ⟨rfl, rfl⟩
  · rw [untyped]
    exact succeeds_pure_iff.mpr ⟨rfl, rfl⟩
  · rw [List.nil_append, List.append_nil]
    exact succeeds_pure_iff.mpr ⟨rfl, rfl⟩

/-- Without an input file, only the lines of the plan are queued. -/
theorem Supplies.AreIn.input_eq {supplies : Supplies} (areIn : supplies.AreIn desk.files plan)
    (nothing : plan.input = none) :
    supplies.input plan = InputQueue.empty.pushLines plan.send := by
  have isText := areIn.text
  rw [nothing] at isText
  rw [Supplies.input]
  cases text : supplies.text with
  | none => rfl
  | some _ =>
      rw [text] at isText
      cases isText

theorem exists_succeeds_prepare {supplies : Supplies} (areIn : supplies.AreIn desk.files plan)
    (leads : plan.Leads) (nothing : plan.input = none) (untyped : plan.readInput = false) :
    ∃ ready, Succeeds (prepare plan) desk (supplies.engine plan, supplies.input plan) ready ∧
      Retains desk ready := by
  obtain ⟨loaded, loads, sameFiles⟩ := exists_succeeds_load areIn plan.engineConfig
  obtain ⟨opened, opens, retains⟩ := exists_succeeds_openFiles leads loaded
  have queues := succeeds_queueInput nothing untyped opened
  rw [← areIn.input_eq nothing] at queues
  simp only [prepare, succeeds_bind_of loads, succeeds_bind_of opens, succeeds_bind_of queues,
    succeeds_recordAll_bind_iff]
  exact ⟨_, succeeds_pure_iff.mpr ⟨rfl, rfl⟩, (retains_of_files sameFiles).trans retains⟩

/-! ## Concluding -/

theorem exists_succeeds_save (leads : plan.Leads) (machine : Machine) (desk : Desk) :
    ∃ after, Succeeds (save machine plan.save) desk () after ∧ Retains desk after := by
  cases saved : plan.save with
  | none => exact ⟨desk, succeeds_pure_iff.mpr ⟨rfl, rfl⟩, retains_of_files rfl⟩
  | some path =>
      have leadsSave := leads.save
      rw [saved] at leadsSave
      obtain ⟨after, changes⟩ := exists_changes leadsSave (.replace (Snapshot.encode machine))
        { desk with journal := desk.journal ++ (Log.ofEncoded machine).map Notice.event }
      simp only [save, succeeds_recordAll_bind_iff,
        succeeds_bind_of (succeeds_changeFile_iff.mpr changes)]
      exact ⟨_, succeeds_recordAll_iff.mpr rfl, changes.retains⟩

theorem exists_perform_conclude (leads : plan.Leads) {run : Run Console} {stop : Outcome}
    (stopped : run.outcome? = some stop) (accepted : run.host.sink.refusedAt = none) (desk : Desk) :
    ∃ after, desk.perform (conclude plan run) = (.ok (reportOf stop run), after) ∧
      Retains desk after := by
  obtain ⟨ran, ⟨during, duringEq, duringOk⟩, retainsDuring⟩ :=
    exists_accepts leads (outboxOf plan run).changesDuring (printed desk run)
  obtain ⟨kept, saves, retainsSave⟩ := exists_succeeds_save leads run.engine.machine ran
  obtain ⟨after, ⟨rest, restEq, restOk⟩, retainsAfter⟩ :=
    exists_accepts leads (outboxOf plan run).changesAfter kept
  have savedEq : ran.perform (save run.engine.machine plan.save).run = (.ok (), kept) := saves
  have unrefused : run.host.refusal.isOk = true := by
    rw [Console.refusal, accepted]
    rfl
  have settled := settle_eq_ok_iff.mpr ⟨stop, stopped, rfl,
    List.forall_mem_cons.mpr ⟨unrefused, List.forall_mem_append.mpr ⟨duringOk, restOk⟩⟩, rfl⟩
  refine ⟨after, ?_, ?_⟩
  · rw [perform_conclude, duringEq]
    simp only [savedEq, restEq, settled]
  · exact (retains_of_files rfl).trans (retainsDuring.trans (retainsSave.trans retainsAfter))

/-! ## Room for the output -/

/-- The bytes that a host has printed. -/
def printedBytes (host : BufferedHost) : Bytes := host.output.toList.flatMap encodeWord

/-- So many bytes fit into the room, if it is limited. -/
def FitsIn (room : Option Nat) (count : Nat) : Prop := ∀ limit, room = some limit → count ≤ limit

theorem FitsIn.mono {room : Option Nat} {count more : Nat} (fits : FitsIn room more)
    (fewer : count ≤ more) : FitsIn room count :=
  fun limit isLimit => Nat.le_trans fewer (fits limit isLimit)

/-- The sink of the console has refused nothing exactly if there was room for all. -/
structure Keeps (room : Option Nat) (console : Console) (host : BufferedHost) : Prop where
  input : console.input = host.input
  sinkRoom : console.sink.room = room
  size : console.sink.refusedAt = none → console.sink.kept.size = (printedBytes host).length
  refusal : console.sink.refusedAt = none ↔ FitsIn room (printedBytes host).length

theorem Sink.fits_iff {sink : Sink} {count : Nat} :
    sink.fits count = true ↔ FitsIn sink.room (sink.kept.size + count) := by
  unfold fits FitsIn
  cases sink.room <;> simp

theorem Sink.room_write (sink : Sink) (bytes : Bytes) : (sink.write bytes).room = sink.room := by
  unfold write
  split <;> rfl

/-- A write is accepted if nothing was refused before and the bytes fit. -/
theorem Sink.refusedAt_write_iff {sink : Sink} {bytes : Bytes} :
    (sink.write bytes).refusedAt = none ↔
      sink.refusedAt = none ∧ FitsIn sink.room (sink.kept.size + bytes.length) := by
  rw [← fits_iff]
  unfold write
  split
  · next fits => simp [fits]
  · next full =>
      cases sink.refusedAt <;> simp [full]

theorem printedBytes_emit (host : BufferedHost) (code : Word) :
    printedBytes (Host.emit host code) = printedBytes host ++ encodeWord code := by
  show (host.output.push code).toList.flatMap encodeWord = _
  rw [Array.toList_push, List.flatMap_append, List.flatMap_singleton]
  rfl

variable {room : Option Nat} {console : Console} {host : BufferedHost}

theorem keeps_start (input : InputQueue) (records : Bool) (room : Option Nat) :
    Keeps room (.start input records room) (recorder input) where
  input := rfl
  sinkRoom := rfl
  size _ := rfl
  refusal := ⟨fun _ limit _ => Nat.zero_le limit, fun _ => rfl⟩

theorem Keeps.emit (keeps : Keeps room console host) (code : Word) :
    Keeps room (Host.emit console code) (Host.emit host code) where
  input := keeps.input
  sinkRoom := (Sink.room_write console.sink (encodeWord code)).trans keeps.sinkRoom
  size accepted := by
    obtain ⟨before, grown⟩ := @Sink.kept_write console.sink _ accepted
    show (console.sink.write (encodeWord code)).kept.size = _
    rw [← Array.length_toList, grown, printedBytes_emit, List.length_append, List.length_append,
      Array.length_toList, keeps.size before]
  refusal := by
    show (console.sink.write (encodeWord code)).refusedAt = none ↔ _
    rw [Sink.refusedAt_write_iff, keeps.sinkRoom, printedBytes_emit, List.length_append]
    constructor
    · rintro ⟨before, fits⟩
      rwa [keeps.size before] at fits
    · intro fits
      have before := keeps.refusal.mpr fun limit isLimit =>
        Nat.le_of_add_right_le (fits limit isLimit)
      rw [keeps.size before]
      exact ⟨before, fits⟩

theorem Keeps.takes (keeps : Keeps room console host) :
    TakesAlike (Keeps room) console host := by
  cases waiting : host.input.pending with
  | nil =>
      refine .exhausted ?_ (BufferedHost.take?_of_pending_nil waiting)
      simp only [Host.take?, keeps.input, InputQueue.take?, waiting]
  | cons code rest =>
      have consoleTakes : Host.take? console = some (code, { console with input := ⟨rest⟩ }) := by
        simp only [Host.take?, keeps.input, InputQueue.take?, waiting]
      refine .supplied consoleTakes (BufferedHost.take?_of_pending_cons waiting) ?_
      exact ⟨rfl, keeps.sinkRoom, keeps.size, keeps.refusal⟩

theorem servesAlike_keeps (room : Option Nat) (tracing : Bool) :
    ServesAlike (Keeps room) tracing tracing where
  emit code keeps := keeps.emit code
  takes keeps := keeps.takes
  announced {_ host} instruction registers breaking keeps := by
    have sameInput := Engine.input_announce tracing host instruction registers breaking
    have sameOutput := Engine.output_announce tracing host instruction registers breaking
    cases tracing with
    | false => exact keeps
    | true =>
        refine ⟨keeps.input.trans sameInput.symm, keeps.sinkRoom, ?_, ?_⟩
        · rw [printedBytes, sameOutput]
          exact keeps.size
        · rw [printedBytes, sameOutput]
          exact keeps.refusal

/-! ## Whole sessions -/

theorem Supplies.refusedAt_iff (supplies : Supplies) (plan : Plan) (room : Option Nat)
    (fuel : Nat) :
    (drive (supplies.engine plan) (Console.start (supplies.input plan) plan.trace.isSome room)
        plan.bypasses fuel).host.sink.refusedAt = none ↔
      FitsIn room (printedBytes (supplies.run plan fuel).host).length :=
  (drive_alike (servesAlike_keeps room _) plan.bypasses fuel (keeps_start _ _ room)).host.refusal

theorem Supplies.outcome?_drive (supplies : Supplies) (plan : Plan) (room : Option Nat)
    (fuel : Nat) :
    (drive (supplies.engine plan) (Console.start (supplies.input plan) plan.trace.isSome room)
        plan.bypasses fuel).outcome? = (supplies.run plan fuel).outcome? :=
  (drive_alike (servesAlike_keeps room _) plan.bypasses fuel (keeps_start _ _ room)).outcome?

/-- A session succeeds if it finds what it reads, its run stops and its output fits. -/
theorem exists_delivered {supplies : Supplies} {fuel : Nat} {stop : Outcome}
    (areIn : supplies.AreIn desk.files plan) (leads : plan.Leads) (apart : plan.WritesApart)
    (nothing : plan.input = none) (untyped : plan.readInput = false)
    (stopped : (supplies.run plan fuel).outcome? = some stop)
    (fits : FitsIn room (printedBytes (supplies.run plan fuel).host).length) :
    ∃ report after, desk.perform (Session.run plan room fuel) = (.ok report, after) ∧
      Delivered plan desk after report (supplies.run plan fuel) ∧ Retains desk after := by
  obtain ⟨ready, prepared, retainsReady⟩ := exists_succeeds_prepare areIn leads nothing untyped
  obtain ⟨_, _, _, _, holds, spares⟩ := of_succeeds_prepare untyped apart prepared
  rw [← supplies.outcome?_drive plan room] at stopped
  rw [← supplies.refusedAt_iff plan room] at fits
  obtain ⟨after, concluded, retains⟩ := exists_perform_conclude leads stopped fits ready
  have preparedEq : desk.perform (prepare plan).run =
      (.ok (supplies.engine plan, supplies.input plan), ready) := prepared
  refine ⟨_, after, ?_, delivered_of_concluded spares.output
    (concluded_of_perform apart holds rfl concluded), retainsReady.trans retains⟩
  rw [perform_run, preparedEq]
  exact concluded

/-- What a session that has succeeded has found, and that its output has fitted. -/
theorem exists_of_run {report : Report} {fuel : Nat} (apart : plan.WritesApart)
    (untyped : plan.readInput = false)
    (succeeded : desk.perform (Session.run plan room fuel) = (.ok report, after)) :
    ∃ supplies : Supplies, supplies.AreIn desk.files plan ∧
      Delivered plan desk after report (supplies.run plan fuel) ∧ plan.Leads ∧
      FitsIn room (printedBytes (supplies.run plan fuel).host).length := by
  rw [perform_run] at succeeded
  rcases prepared : desk.perform (prepare plan).run with ⟨error | ⟨engine, input⟩, ready⟩
  · rw [prepared] at succeeded
    cases succeeded
  · rw [prepared] at succeeded
    obtain ⟨supplies, areIn, rfl, rfl, holds, spares⟩ := of_succeeds_prepare untyped apart prepared
    have concluded := concluded_of_perform apart holds rfl succeeded
    refine ⟨supplies, areIn, delivered_of_concluded spares.output concluded, ⟨?_, ?_⟩,
      (supplies.refusedAt_iff plan room fuel).mp concluded.accepted⟩
    · intro target path named
      exact isSome_name?_of_contentAt? (concluded.targets target path named)
    · intro path named
      exact isSome_name?_of_contentAt? (concluded.saved path named)

end RegisterMachine.Session
