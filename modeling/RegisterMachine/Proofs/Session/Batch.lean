import RegisterMachine.Proofs.Session.Mirroring
import RegisterMachine.Proofs.Session.Phases
import RegisterMachine.Proofs.TraceLines

/-!
Contract: a session is the run of a buffered host.

What a session leaves behind, and what it reports, can be told without a
console, an outbox or the buffers in between: it is what one and the same engine
does with a buffered host that has the same input.

Owns: `Delivered`, what a session that has come to its end has delivered.
Does not own: what the run of the buffered host can be foretold from
(`Proofs.Session.Foretold`).
-/

namespace RegisterMachine.Session

open Files

/-! ## The texts of a record -/

/-- The line of each event. -/
def traceText (events : Array TraceEvent) : String :=
  String.join (events.toList.map fun event => Listing.traceLine event ++ "\n")

theorem encode_outputText (host : BufferedHost) :
    Text.encode host.outputText = host.output.toList.flatMap encodeWord := by
  rw [Text.encode, BufferedHost.outputText, String.toList_ofList, List.flatMap_map]
  rfl

theorem encode_traceText (events : Array TraceEvent) :
    Text.encode (traceText events) =
      events.toList.flatMap fun event => Text.encode (Listing.traceLine event ++ "\n") := by
  rw [traceText, Text.encode_join, List.flatMap_map]

/-- What a target receives of what a buffered host has kept. -/
def textFor (host : BufferedHost) : Target → Bytes
  | .log => Text.encode host.outputText
  | .trace => Text.encode (traceText host.trace)

/-- The log receives the codes of a record, and the trace its events. -/
theorem flatMap_text (console : Console) (target : Target) :
    console.record.toList.flatMap (Entry.text target) = textFor console.buffered target := by
  have general (entries : List Entry) : entries.flatMap (Entry.text target) =
      match target with
      | .log => (entries.filterMap Entry.printed?).flatMap encodeWord
      | .trace => (entries.filterMap Entry.observed?).flatMap fun event =>
          Text.encode (Listing.traceLine event ++ "\n") := by
    induction entries with
    | nil => cases target <;> rfl
    | cons entry rest inductionHypothesis =>
        rw [List.flatMap_cons, inductionHypothesis]
        cases target <;> cases entry <;> rfl
  rw [general]
  cases target with
  | log => rw [textFor, encode_outputText, Console.buffered, Array.toList_filterMap]
  | trace => rw [textFor, encode_traceText, Console.buffered, Array.toList_filterMap]

variable {plan : Plan} {desk after : Desk}

/-- A target that has a file receives all that a record has for it. -/
theorem total_outboxOf (run : Run Console) {target : Target} {path : String}
    (named : plan.file? target = some path) :
    (outboxOf plan run).total target = run.host.record.toList.flatMap (Entry.text target) := by
  rw [outboxOf, Outbox.total_ofRecord, Plan.written, Array.toList_filter]
  induction run.host.record.toList with
  | nil => rfl
  | cons entry rest inductionHypothesis =>
      rw [List.filter_cons, List.flatMap_cons]
      split
      · rw [List.flatMap_cons, inductionHypothesis]
      · next unwritten =>
          have different : entry.target ≠ target := by
            rintro rfl
            rw [named] at unwritten
            exact unwritten rfl
          rw [inductionHypothesis, Entry.text_of_ne different, List.nil_append]

/-- The file of a target holds what it held before, and then all that was printed or observed. -/
theorem Concluded.contentAt? {texts : Target → Bytes} {run : Run Console} {ready : Desk}
    {report : Report} (concluded : Concluded plan texts run ready after report) {target : Target}
    {path : String} (named : plan.file? target = some path) :
    after.files.contentAt? path = some (texts target ++ textFor run.host.buffered target) := by
  rw [← flatMap_text, ← total_outboxOf run named]
  exact concluded.targets target path named

/-! ## The engine of a session -/

theorem setBreakpoints_eq (engine : Engine) (addresses : List Nat) :
    setBreakpoints engine addresses =
      engine.withBreakpoints
        (addresses.foldl (fun set address => (set.add address).2) engine.breakpoints) := by
  unfold setBreakpoints
  induction addresses generalizing engine with
  | nil => rfl
  | cons address rest inductionHypothesis =>
      rw [List.foldl_cons, inductionHypothesis]
      rfl

theorem Supplies.engine_eq (supplies : Supplies) (plan : Plan) :
    supplies.engine plan =
      (supplies.loaded plan.engineConfig).withBreakpoints (.ofList plan.breakpoints) := by
  have unset : (supplies.loaded plan.engineConfig).breakpoints = .empty := by
    rw [loaded]
    cases supplies.machine <;> rfl
  rw [engine, setBreakpoints_eq, unset]
  rfl

theorem Supplies.config_engine (supplies : Supplies) (plan : Plan) :
    (supplies.engine plan).config = plan.engineConfig := by
  rw [engine, setBreakpoints_eq, loaded]
  cases supplies.machine <;> rfl

/-- The run of a buffered host with the input of the session, driven as the session drives it. -/
def Supplies.run (supplies : Supplies) (plan : Plan) (fuel : Nat) : Run BufferedHost :=
  drive (supplies.engine plan) (recorder (supplies.input plan)) plan.bypasses fuel

/-! ## Reports -/

theorem breakpointLine_eq_some_iff {stop : Outcome} {console : Console} {line : String} :
    breakpointLine stop console = some line ↔
      (∃ address, stop = .suspended (.breakpoint address)) ∧
        ∃ event, console.hit = some event ∧ Listing.traceLine event = line := by
  unfold breakpointLine
  split
  · next address => simp
  · next other => exact ⟨nofun, fun ⟨⟨address, same⟩, _⟩ => absurd same (other address)⟩

section
variable {engine : Engine} {console : Console} {host : BufferedHost} {bypass records : Bool}
  {fuel : Nat} {stop : Outcome}

/-- A session shows a line exactly if a breakpoint has stopped a traced run, and it is the line of
the last event. -/
theorem breakpointLine_of_alike
    (alike : (drive engine console bypass fuel).Alike (Mirrors engine.config.tracing records)
      (drive engine host bypass fuel))
    (stopped : (drive engine host bypass fuel).outcome? = some stop) (line : String) :
    breakpointLine stop (drive engine console bypass fuel).host = some line ↔
      (∃ address, stop = .suspended (.breakpoint address)) ∧ engine.config.tracing = true ∧
        ∃ event, (drive engine host bypass fuel).host.trace.back? = some event ∧
          event.breaking = true ∧ line = Listing.traceLine event := by
  rw [breakpointLine_eq_some_iff, alike.host.hit]
  refine and_congr_right ?_
  rintro ⟨address, rfl⟩
  cases traces : engine.config.tracing with
  | false =>
      rw [alike.host.silent traces]
      exact ⟨nofun, nofun⟩
  | true =>
      obtain ⟨last, breaking, isLast, isHit⟩ :=
        exists_lastHit_of_drive traces alike.host.recordTrace stopped
      rw [isHit, isLast]
      constructor
      · rintro ⟨event, same, rfl⟩
        cases same
        exact ⟨rfl, last, rfl, breaking, rfl⟩
      · rintro ⟨_, event, same, _, rfl⟩
        cases same
        exact ⟨last, rfl, rfl⟩

/-- Whenever a breakpoint has stopped a traced run, there is a line to show. -/
theorem isSome_breakpointLine_of_alike
    (alike : (drive engine console bypass fuel).Alike (Mirrors engine.config.tracing records)
      (drive engine host bypass fuel))
    (stopped : (drive engine host bypass fuel).outcome? = some stop) :
    (breakpointLine stop (drive engine console bypass fuel).host).isSome = true ↔
      (∃ address, stop = .suspended (.breakpoint address)) ∧ engine.config.tracing = true := by
  rw [Option.isSome_iff_exists]
  simp only [breakpointLine_of_alike alike stopped]
  constructor
  · rintro ⟨line, paused, traces, _⟩
    exact ⟨paused, traces⟩
  · rintro ⟨⟨address, rfl⟩, traces⟩
    obtain ⟨event, breaking, isLast, _⟩ :=
      exists_lastHit_of_drive traces alike.host.recordTrace stopped
    exact ⟨Listing.traceLine event, ⟨address, rfl⟩, traces, event, isLast, breaking, rfl⟩

end

/-- What a session that has succeeded has delivered, told by the run of a buffered host. -/
structure Delivered (plan : Plan) (desk after : Desk) (report : Report) (run : Run BufferedHost) :
    Prop where
  output : after.output = desk.output ++ Text.encode run.host.outputText
  log : ∀ path, plan.log = some path →
    after.files.read path =
      .ok ((desk.files.read path).toOption.getD [] ++ Text.encode run.host.outputText)
  trace : ∀ path, plan.trace = some path →
    after.files.read path = .ok (Text.encode (traceText run.host.trace))
  untraced : plan.disableTrace = true → run.host.trace = #[]
  lines : ∀ event ∈ run.host.trace, Text.OnOneLine (Listing.traceLine event)
  save : ∀ path, plan.save = some path →
    after.files.read path = .ok (Snapshot.encode run.engine.machine)
  stop : run.outcome? = some report.stop
  steps : report.steps = run.steps
  result : report.result = run.engine.result
  pc : report.pc = run.engine.machine.pc
  hasLine : report.breakpointLine.isSome = true ↔
    (∃ address, report.stop = .suspended (.breakpoint address)) ∧ plan.disableTrace = false
  line : ∀ line, report.breakpointLine = some line →
    ∃ event, run.host.trace.back? = some event ∧ event.breaking = true ∧
      line = Listing.traceLine event

theorem perform_run (desk : Desk) (room : Option Nat) (fuel : Nat) :
    desk.perform (Session.run plan room fuel) =
      match desk.perform (prepare plan).run with
      | (.error error, after) => (.error error, after)
      | (.ok (engine, input), ready) =>
          ready.perform (conclude plan
            (drive engine (.start input plan.trace.isSome room) plan.bypasses fuel)) := by
  unfold Session.run
  rw [Desk.perform_bind]
  rcases desk.perform (prepare plan).run with ⟨_ | ⟨_, _⟩, _⟩ <;> rfl

theorem delivered_of_concluded {supplies : Supplies} {ready : Desk} {report : Report}
    {room : Option Nat} {fuel : Nat} (printed : ready.output = desk.output)
    (concluded : Concluded plan (plan.opened desk.files)
      (drive (supplies.engine plan) (.start (supplies.input plan) plan.trace.isSome room)
        plan.bypasses fuel) ready after report) :
    Delivered plan desk after report (supplies.run plan fuel) := by
  have tracing : (supplies.engine plan).config.tracing = !plan.disableTrace := by
    rw [supplies.config_engine]
    rfl
  have alike := drive_alike
    (servesAlike_mirrors (supplies.engine plan).config.tracing plan.trace.isSome) plan.bypasses fuel
    (mirrors_start _ _ (supplies.input plan) room)
  have mirrors := alike.host
  obtain ⟨stop, stopped, rfl⟩ := concluded.report
  rw [alike.outcome?] at stopped
  have hasLine := isSome_breakpointLine_of_alike alike stopped
  rw [tracing, Bool.not_eq_true'] at hasLine
  refine ⟨?_, ?_, ?_, ?_, fun event _ => Listing.onOneLine_traceLine event, ?_, stopped,
    alike.steps, congrArg Engine.result alike.engine, congrArg (·.machine.pc) alike.engine,
    hasLine, fun line shown => ((breakpointLine_of_alike alike stopped line).mp shown).2.2⟩
  · rw [concluded.output, printed, mirrors.kept concluded.accepted, ← encode_outputText]
    rfl
  · intro path named
    have held := @Concluded.contentAt? _ _ _ _ _ _ concluded .log path named
    simp only [textFor, BufferedHost.outputText, mirrors.printed, Plan.opened, named,
      Option.bind_some] at held
    rw [toOption_read]
    exact read_eq_ok_iff.mpr held
  · intro path named
    have held := @Concluded.contentAt? _ _ _ _ _ _ concluded .trace path named
    simp only [textFor, mirrors.observed (Option.isSome_of_eq_some named)] at held
    exact read_eq_ok_iff.mpr held
  · intro untraced
    exact mirrors.silent (by rw [tracing, untraced]; rfl)
  · intro path named
    rw [read_eq_ok_iff, concluded.saved path named, alike.engine]
    rfl

end RegisterMachine.Session
