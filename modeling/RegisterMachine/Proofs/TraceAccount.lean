import RegisterMachine.Proofs.Faults
import RegisterMachine.Proofs.HostSimulation
import RegisterMachine.Proofs.Stepping

/-!
Contract: the trace tells the whole story of a run.

Every cycle that fetches an instruction adds one event to the trace, with that
instruction and the registers it found. So the events of a run are those of its
completed cycles, in order, and one more if the cycle that ended the run had
fetched an instruction. From the events alone it can be told what was printed
and how much input was taken. Whether a trace is kept has no influence on
anything else.

Owns: what a cycle and a run add to the records of a buffered host.
Does not own: how events are shown (`Listing`).
-/

namespace RegisterMachine

/-- Executing an instruction can raise this fault; the others are raised when there is none. -/
def Fault.ofExecution : Fault → Bool
  | .notARegister _ | .stackUnderflow _ | .divisionByZero _ | .returnAddressOverflow _ => true
  | .unknownOpcode _ _ | .truncatedInstruction _ _ => false

/-- The cycle that ended a run in this way had fetched an instruction. -/
def Outcome.fetched : Outcome → Bool
  | .suspended .needsInput | .suspended (.breakpoint _) => true
  | .halted _ .instruction => true
  | .halted _ (.fault cause) => cause.ofExecution
  | .halted _ .endOfProgram | .halted _ .requested | .halted _ .restored => false
  | .completed => false

namespace TraceEvent

/-- The codes that the instruction prints, told from the registers of the event. -/
def printed (event : TraceEvent) : List Word :=
  if event.instruction.opcode = .output ∧ event.breaking = false then
    [Operand.resolve event.registers (event.instruction.operand 0)]
  else []

/-- The instruction takes an input code. -/
def reads (event : TraceEvent) : Bool := decide (event.instruction.opcode = .input)

end TraceEvent

/-- The event tells of the instruction that the next cycle of the engine fetches. -/
structure Engine.Fetches (engine : Engine) (event : TraceEvent) : Prop where
  counter : engine.machine.pc = some event.instruction.address
  decoded : decode engine.machine.memory event.instruction.address =
    .instruction event.instruction
  registers : event.registers = engine.machine.registers

/-- What happened to a buffered host in the course of some events. -/
structure BufferedHost.Records (host : BufferedHost) (events : List TraceEvent)
    (printed taken : List Word) (after : BufferedHost) : Prop where
  trace : after.trace.toList = host.trace.toList ++ events
  output : after.output.toList = host.output.toList ++ printed
  pending : host.input.pending = taken ++ after.input.pending
  recordTrace : after.recordTrace = host.recordTrace

/-- The second host has the same input and output. It has kept the trace `earlier`, unless it is told
of events and records them. -/
structure BufferedHost.SameStreams (earlier : Array TraceEvent) (told recorded : Bool)
    (plain other : BufferedHost) : Prop where
  input : other.input = plain.input
  output : other.output = plain.output
  recordTrace : other.recordTrace = recorded
  trace : told = false ∨ recorded = false → other.trace = earlier

namespace BufferedHost

variable {host middle after : BufferedHost} {events moreEvents : List TraceEvent}
  {printed morePrinted taken moreTaken : List Word}

theorem records_nothing (host : BufferedHost) : host.Records [] [] [] host where
  trace := (List.append_nil _).symm
  output := (List.append_nil _).symm
  pending := rfl
  recordTrace := rfl

theorem Records.trans (first : host.Records events printed taken middle)
    (later : middle.Records moreEvents morePrinted moreTaken after) :
    host.Records (events ++ moreEvents) (printed ++ morePrinted) (taken ++ moreTaken) after where
  trace := by rw [later.trace, first.trace, List.append_assoc]
  output := by rw [later.output, first.output, List.append_assoc]
  pending := by rw [first.pending, later.pending, List.append_assoc]
  recordTrace := later.recordTrace.trans first.recordTrace

/-- Records of events that tell what was printed are extended by one more of them. -/
theorem Records.concat {event : TraceEvent}
    (first : host.Records events (events.flatMap TraceEvent.printed) taken middle)
    (last : middle.Records [event] event.printed moreTaken after) :
    host.Records (events ++ [event]) ((events ++ [event]).flatMap TraceEvent.printed)
      (taken ++ moreTaken) after := by
  rw [List.flatMap_append, List.flatMap_singleton]
  exact first.trans last

theorem records_announce (recording : host.recordTrace = true) (instruction : Instruction)
    (registers : RegisterFile) (breaking : Bool) :
    host.Records [⟨instruction, registers, breaking⟩] [] []
      (Engine.announce true host instruction registers breaking) := by
  have told : Engine.announce true host instruction registers breaking =
      { host with trace := host.trace.push ⟨instruction, registers, breaking⟩ } := by
    simp only [Engine.announce, Host.observe, recording, if_true]
  rw [told]
  exact ⟨Array.toList_push, (List.append_nil _).symm, rfl, rfl⟩

end BufferedHost

namespace Engine

open BufferedHost

/-! ## One execution -/

theorem ofExecution_of_execute {H : Type} [Host H] {instruction : Instruction} {machine : Machine}
    {host : H} {fault : Fault}
    (raised : (execute instruction machine host).result = .error fault) :
    fault.ofExecution = true := by
  rw [instruction.result_eq_error_iff] at raised
  unfold Instruction.fault? at raised
  split at raised
  · cases raised
    rfl
  · split at raised
    · cases raised
      rfl
    · split at raised
      · cases raised
        rfl
      · split at raised
        · cases raised
          rfl
        · cases raised

theorem ofExecution_of_decode {memory : Memory} {address : Nat} {fault : Fault}
    (found : decode memory address = .fault fault) : fault.ofExecution = false := by
  unfold decode at found
  split at found
  · cases found
  · split at found
    · cases found
      rfl
    · split at found
      · cases found
        rfl
      · cases found

/-- An execution that is not completed ends in a way that tells of the fetched instruction. -/
theorem fetched_of_conclude {H : Type} [Host H] (engine : Engine) (instruction : Instruction)
    (machine : Machine) (host : H) :
    (engine.conclude instruction (execute instruction machine host)).outcome = .completed ∨
      (engine.conclude instruction (execute instruction machine host)).outcome.fetched = true := by
  cases result : (execute instruction machine host).result with
  | error fault =>
      simp only [conclude, result]
      exact .inr (ofExecution_of_execute result)
  | ok effect =>
      simp only [conclude, result]
      cases effect with
      | next | jump _ => exact .inl rfl
      | halt | needsInput => exact .inr rfl

theorem host_conclude {H : Type} (engine : Engine) (instruction : Instruction)
    (execution : Execution H) :
    (engine.conclude instruction execution).host = execution.host := by
  unfold conclude
  split <;> rfl

/-- What an execution prints is told by its event, and it takes a code if it is an `in` that is
completed. -/
theorem exists_records_conclude (engine : Engine) (instruction : Instruction)
    (host : BufferedHost) :
    ∃ taken,
      host.Records [] (TraceEvent.printed ⟨instruction, engine.machine.registers, false⟩) taken
        (engine.conclude instruction (execute instruction engine.machine host)).host ∧
      taken.length =
        if (engine.conclude instruction (execute instruction engine.machine host)).outcome =
            .completed ∧ instruction.opcode = .input then 1 else 0 := by
  by_cases reads : instruction.opcode = .input
  · have silent : TraceEvent.printed ⟨instruction, engine.machine.registers, false⟩ = [] := by
      simp only [TraceEvent.printed, reads, reduceCtorEq, false_and, if_false]
    rw [silent, host_conclude]
    cases waiting : host.input.pending with
    | nil =>
        rw [execute_of_exhausted engine.machine reads (take?_of_pending_nil waiting)]
        exact ⟨[], records_nothing host, rfl⟩
    | cons code rest =>
        rw [execute_input engine.machine host reads, receive, take?_of_pending_cons waiting]
        have served : host.Records [] [] [code] { host with input := ⟨rest⟩ } :=
          ⟨(List.append_nil _).symm, (List.append_nil _).symm, waiting, rfl⟩
        cases Operand.register? (instruction.operand 0) with
        | none => exact ⟨[code], served, by simp [conclude, reads]⟩
        | some register => exact ⟨[code], served, by simp [conclude, reads]⟩
  · refine ⟨[], ?_, by simp [reads]⟩
    rw [host_conclude]
    by_cases prints : instruction.opcode = .output
    · rw [execute_output engine.machine host prints]
      refine ⟨(List.append_nil _).symm, ?_, rfl, rfl⟩
      simp only [TraceEvent.printed, prints, and_self, if_true]
      exact Array.toList_push
    · have silent : TraceEvent.printed ⟨instruction, engine.machine.registers, false⟩ = [] := by
        simp only [TraceEvent.printed, prints, false_and, if_false]
      obtain ⟨result, after, _, uniform⟩ := hostFree_execute instruction engine.machine reads prints
      have executed : execute instruction engine.machine host = ⟨result, after, host⟩ :=
        uniform host
      rw [silent, executed]
      exact records_nothing host

/-! ## One cycle -/

/-- What a cycle that ends with this outcome has added to the records of its host: an event, if an
instruction was fetched, and otherwise nothing. -/
inductive CycleRecords (engine : Engine) (host : BufferedHost) (outcome : Outcome)
    (after : BufferedHost) : Prop where
  | event {event : TraceEvent} {taken : List Word}
      (ends : outcome = .completed ∨ outcome.fetched = true)
      (fetches : engine.Fetches event)
      (records : host.Records [event] event.printed taken after)
      (count : taken.length = if outcome = .completed ∧ event.reads = true then 1 else 0)
      (breaking : event.breaking = true ↔ ∃ address, outcome = .suspended (.breakpoint address))
  | nothing
      (incomplete : outcome ≠ .completed)
      (ends : outcome.fetched = false)
      (same : after = host)

variable {engine next last : Engine} {host nextHost lastHost : BufferedHost} {outcome : Outcome}
  {steps fuel : Nat}

theorem cycleRecords_handle {instruction : Instruction}
    (counter : engine.machine.pc = some instruction.address)
    (decoded : decode engine.machine.memory instruction.address = .instruction instruction)
    (traces : engine.config.tracing = true) (recording : host.recordTrace = true) :
    engine.CycleRecords host (engine.handle host false instruction).outcome
      (engine.handle host false instruction).host := by
  unfold handle
  simp only [Bool.not_false, Bool.true_and, traces]
  have announced := records_announce recording instruction engine.machine.registers
  cases breaking : engine.breakpoints.contains instruction.address with
  | true =>
      simp only [if_true]
      have silent : TraceEvent.printed ⟨instruction, engine.machine.registers, true⟩ = [] := by
        simp only [TraceEvent.printed, Bool.true_eq_false, and_false, if_false]
      refine @CycleRecords.event engine host _ _ ⟨instruction, engine.machine.registers, true⟩ []
        (.inr rfl) ⟨counter, decoded, rfl⟩ ?_ rfl ?_
      · rw [silent]
        exact announced true
      · exact ⟨fun _ => ⟨_, rfl⟩, fun _ => rfl⟩
  | false =>
      simp only [Bool.false_eq_true, if_false, perform_eq_conclude]
      obtain ⟨taken, records, count⟩ := exists_records_conclude engine instruction
        (announce true host instruction engine.machine.registers false)
      refine .event (fetched_of_conclude engine instruction engine.machine _)
        ⟨counter, decoded, rfl⟩ ((announced false).trans records) ?_ ?_
      · simpa [TraceEvent.reads] using count
      · constructor
        · nofun
        · rintro ⟨address, paused⟩
          exact absurd paused (conclude_not_breakpoint engine instruction _ address)

theorem cycleRecords_cycle (running : engine.machine.pc ≠ none)
    (traces : engine.config.tracing = true) (recording : host.recordTrace = true) :
    engine.CycleRecords host (engine.cycle host false).outcome (engine.cycle host false).host := by
  cases counter : engine.machine.pc with
  | none => exact absurd counter running
  | some pc =>
      unfold cycle
      simp only [counter]
      cases found : decode engine.machine.memory pc with
      | endOfProgram => exact .nothing nofun rfl rfl
      | fault fault => exact .nothing nofun (ofExecution_of_decode found) rfl
      | instruction instruction =>
          have address := address_of_decode found
          subst address
          have handled := @cycleRecords_handle { engine with suspension := none } host instruction
            counter found traces recording
          cases handled with
          | event ends fetches records count breaking =>
              exact .event ends ⟨fetches.counter, fetches.decoded, fetches.registers⟩ records count
                breaking
          | nothing incomplete ends same => exact .nothing incomplete ends same

/-! ## Completed cycles -/

theorem counter_of_completed
    (completed : engine.cycle host false = ⟨.completed, next, nextHost⟩) :
    engine.machine.pc ≠ none ∧ next.machine.pc ≠ none := by
  cases engine.cycleStart with
  | halted _ cycles | stops _ _ _ cycles =>
      rw [cycles] at completed
      cases completed
  | @fetches instruction counter _ cycles =>
      rw [cycles] at completed
      refine ⟨by rw [counter]; exact Option.some_ne_none _, ?_⟩
      unfold handle at completed
      simp only at completed
      split at completed
      · cases completed
      · rw [perform_eq_conclude, conclude] at completed
        split at completed <;> cases completed <;> exact Option.some_ne_none _

theorem Completes.counter (completes : engine.Completes host steps next nextHost)
    (running : engine.machine.pc ≠ none) : next.machine.pc ≠ none := by
  cases steps with
  | zero =>
      cases completes
      exact running
  | succ steps =>
      obtain ⟨_, _, _, cycled⟩ := completes_succ_last_iff.mp completes
      exact (counter_of_completed cycled).2

theorem getElem?_concat_eq_some_iff {A : Type} {earlier : List A} {last found : A} {index : Nat} :
    (earlier ++ [last])[index]? = some found ↔
      earlier[index]? = some found ∨ index = earlier.length ∧ found = last := by
  grind

/-- Each event tells of the cycle after as many completed ones as there are events before it. -/
def TellsCycles (engine : Engine) (host : BufferedHost) (events : List TraceEvent) : Prop :=
  ∀ index event, events[index]? = some event →
    ∃ next nextHost, engine.Completes host index next nextHost ∧ next.Fetches event

theorem TellsCycles.append {events : List TraceEvent} {event : TraceEvent}
    (tells : engine.TellsCycles host events) (length : events.length = steps)
    (completes : engine.Completes host steps next nextHost) (fetches : next.Fetches event) :
    engine.TellsCycles host (events ++ [event]) := by
  intro index told found
  rcases getElem?_concat_eq_some_iff.mp found with isEarlier | ⟨isLast, rfl⟩
  · exact tells index told isEarlier
  · rw [isLast, length]
    exact ⟨next, nextHost, completes, fetches⟩

/-- Some completed cycles have added one event each, none of them breaking, and have taken a code
for each event that tells of an `in`. -/
structure Accounts (engine : Engine) (host : BufferedHost) (steps : Nat)
    (events : List TraceEvent) (taken : List Word) (after : BufferedHost) : Prop where
  records : host.Records events (events.flatMap TraceEvent.printed) taken after
  length : events.length = steps
  tells : engine.TellsCycles host events
  passing : ∀ event ∈ events, event.breaking = false
  count : taken.length = events.countP TraceEvent.reads

theorem accounts_zero (engine : Engine) (host : BufferedHost) :
    engine.Accounts host 0 [] [] host where
  records := records_nothing host
  length := rfl
  tells := nofun
  passing := nofun
  count := rfl

theorem exists_accounts_of_completes (traces : engine.config.tracing = true)
    (recording : host.recordTrace = true)
    (completes : engine.Completes host steps next nextHost) :
    ∃ events taken, engine.Accounts host steps events taken nextHost := by
  induction steps generalizing next nextHost with
  | zero =>
      cases completes
      exact ⟨[], [], accounts_zero engine host⟩
  | succ steps inductionHypothesis =>
      obtain ⟨middle, middleHost, before, cycled⟩ := completes_succ_last_iff.mp completes
      obtain ⟨events, taken, earlier⟩ := inductionHypothesis before
      have middleTraces : middle.config.tracing = true := by rw [before.settings.1, traces]
      have middleRecords : middleHost.recordTrace = true :=
        earlier.records.recordTrace.trans recording
      have last := cycleRecords_cycle (counter_of_completed cycled).1 middleTraces middleRecords
      rw [cycled] at last
      cases last with
      | nothing incomplete _ _ => contradiction
      | @event event code ends fetches records reads breaking =>
          have passes : event.breaking = false :=
            Bool.eq_false_iff.mpr fun isBreaking => nomatch (breaking.mp isBreaking).choose_spec
          refine ⟨events ++ [event], taken ++ code, earlier.records.concat records, ?_,
            earlier.tells.append earlier.length before fetches, ?_, ?_⟩
          · rw [List.length_append, earlier.length]
            rfl
          · exact List.forall_mem_append.mpr
              ⟨earlier.passing, List.forall_mem_singleton.mpr passes⟩
          · rw [List.length_append, earlier.count, List.countP_append, List.countP_singleton, reads]
            simp only [true_and]

/-! ## Whole runs -/

/-- What a run that has ended with this outcome has added to the records of its host: an event for
each completed cycle, and another one if the last cycle had fetched an instruction. -/
structure AccountsRun (engine : Engine) (host : BufferedHost) (outcome : Outcome) (steps : Nat)
    (events : List TraceEvent) (taken : List Word) (after : BufferedHost) : Prop where
  records : host.Records events (events.flatMap TraceEvent.printed) taken after
  length : events.length = steps + outcome.fetched.toNat
  tells : engine.TellsCycles host events
  breaking : ∀ index event, events[index]? = some event →
    (event.breaking = true ↔ index = steps ∧ ∃ address, outcome = .suspended (.breakpoint address))
  count : taken.length = (events.take steps).countP TraceEvent.reads

section
variable {events : List TraceEvent} {taken : List Word} {after : BufferedHost}

/-- A run that ends without a fetch has the account of its completed cycles. -/
theorem Accounts.of_unfetched (accounts : engine.Accounts host steps events taken after)
    (unfetched : outcome.fetched = false) :
    engine.AccountsRun host outcome steps events taken after where
  records := accounts.records
  length := by
    rw [accounts.length, unfetched]
    rfl
  tells := accounts.tells
  breaking index event found := by
    rw [accounts.passing event (List.mem_of_getElem? found)]
    refine ⟨nofun, ?_⟩
    rintro ⟨_, address, rfl⟩
    cases unfetched
  count := by rw [List.take_of_length_le (Nat.le_of_eq accounts.length), accounts.count]

/-- A run that ends with a fetch has one event more, and that one alone can be breaking. -/
theorem Accounts.of_fetched {event : TraceEvent}
    (accounts : engine.Accounts host steps events taken nextHost)
    (completes : engine.Completes host steps next nextHost) (fetched : outcome.fetched = true)
    (fetches : next.Fetches event) (records : nextHost.Records [event] event.printed [] after)
    (breaking : event.breaking = true ↔ ∃ address, outcome = .suspended (.breakpoint address)) :
    engine.AccountsRun host outcome steps (events ++ [event]) taken after where
  records := by
    have both := accounts.records.concat records
    rwa [List.append_nil] at both
  length := by
    rw [List.length_append, accounts.length, fetched]
    rfl
  tells := accounts.tells.append accounts.length completes fetches
  breaking index told found := by
    rcases getElem?_concat_eq_some_iff.mp found with isEarlier | ⟨isLast, rfl⟩
    · have before : index < steps :=
        accounts.length ▸ (List.getElem?_eq_some_iff.mp isEarlier).1
      rw [accounts.passing told (List.mem_of_getElem? isEarlier)]
      exact ⟨nofun, fun atEnd => absurd atEnd.1 (Nat.ne_of_lt before)⟩
    · exact breaking.trans (iff_and_self.mpr fun _ => isLast.trans accounts.length)
  count := by rw [List.take_left' accounts.length, accounts.count]

end

theorem exists_accountsRun_of_run (running : engine.machine.pc ≠ none)
    (traces : engine.config.tracing = true) (recording : host.recordTrace = true)
    (ended : engine.run host fuel = ⟨some outcome, steps, last, lastHost⟩) :
    ∃ events taken, engine.AccountsRun host outcome steps events taken lastHost := by
  obtain ⟨_, ends⟩ := run_eq_iff.mp ended
  cases ends with
  | limited completes _ _ =>
      obtain ⟨events, taken, accounts⟩ := exists_accounts_of_completes traces recording completes
      exact ⟨events, taken, accounts.of_unfetched rfl⟩
  | @stopped _ next _ nextHost _ completes _ stops incomplete =>
      obtain ⟨events, taken, accounts⟩ := exists_accounts_of_completes traces recording completes
      have nextTraces : next.config.tracing = true := by rw [completes.settings.1, traces]
      have final := cycleRecords_cycle (completes.counter running) nextTraces
        (accounts.records.recordTrace.trans recording)
      rw [stops] at final
      cases final with
      | nothing _ unfetched same =>
          simp only at unfetched same
          subst same
          exact ⟨events, taken, accounts.of_unfetched unfetched⟩
      | @event event code fetched fetches records reads breaking =>
          -- An `in` that was not completed found no code, so there is nothing to count.
          have noCode : code = [] := by
            rw [if_neg fun completed => incomplete completed.1] at reads
            exact List.length_eq_zero_iff.mp reads
          subst noCode
          exact ⟨events ++ [event], taken, accounts.of_fetched completes
            (fetched.resolve_left incomplete) fetches records breaking⟩

end Engine

/-! ## Tracing has no influence -/

namespace BufferedHost

variable {earlier : Array TraceEvent} {told recorded : Bool} {plain other : BufferedHost}

theorem SameStreams.announce (same : SameStreams earlier told recorded plain other)
    (plainTold : Bool) (instruction : Instruction) (registers : RegisterFile) (breaking : Bool) :
    SameStreams earlier told recorded
      (Engine.announce plainTold plain instruction registers breaking)
      (Engine.announce told other instruction registers breaking) := by
  refine ⟨?_, ?_, ?_, ?_⟩
  · rw [Engine.input_announce, Engine.input_announce, same.input]
  · rw [Engine.output_announce, Engine.output_announce, same.output]
  · rw [Engine.recordTrace_announce, same.recordTrace]
  · intro silent
    have unrecorded := silent
    rw [← same.recordTrace] at unrecorded
    rw [Engine.announce_of_silent unrecorded, same.trace silent]

theorem servesAlike_sameStreams (plainTold : Bool) :
    ServesAlike (SameStreams earlier told recorded) plainTold told where
  emit := by
    intro plain other code same
    refine ⟨same.input, ?_, same.recordTrace, same.trace⟩
    simp only [Host.emit, same.output]
  takes := by
    intro plain other same
    exact takesAlike_of_input same.input fun _ =>
      ⟨rfl, same.output, same.recordTrace, same.trace⟩
  announced := by
    intro plain other instruction registers breaking same
    exact same.announce plainTold instruction registers breaking

end BufferedHost

namespace Engine

open BufferedHost

/-- Whether an engine traces and what a host records has no influence on a run; if the engine does
not trace or the host does not record, the trace stays as it is. -/
theorem run_withTracing (engine : Engine) (traces : Bool) {host other : BufferedHost}
    (input : other.input = host.input) (output : other.output = host.output) (fuel : Nat) :
    ∃ otherHost,
      (engine.withTracing traces).run other fuel =
        ⟨(engine.run host fuel).outcome?, (engine.run host fuel).steps,
          (engine.run host fuel).engine.withTracing traces, otherHost⟩ ∧
      otherHost.output = (engine.run host fuel).host.output ∧
      otherHost.input = (engine.run host fuel).host.input ∧
      (traces = false ∨ other.recordTrace = false → otherHost.trace = other.trace) := by
  have same : SameStreams other.trace traces other.recordTrace host other :=
    ⟨input, output, rfl, fun _ => rfl⟩
  obtain ⟨outcome, steps, last, streams⟩ :=
    resume_serves (servesAlike_sameStreams engine.config.tracing) 0 fuel same
  refine ⟨((engine.withTracing traces).run other fuel).host, ?_, streams.output, streams.input,
    streams.trace⟩
  rw [run, run]
  simp only [Run.mapEngine] at outcome steps last
  rw [outcome, steps, last]

/-- The trace of a run that has ended is the sequence of the fetched instructions: one event for each
completed cycle, with the registers that the instruction found, and another one if the run was
ended by an instruction or before one. What was printed, and how much input was taken, is told by
the events, and without any trace the run is the same. -/
theorem trace_tells_run {engine last : Engine} {host lastHost : BufferedHost} {fuel steps : Nat}
    {outcome : Outcome} (running : engine.machine.pc ≠ none)
    (traces : engine.config.tracing = true) (recording : host.recordTrace = true)
    (ended : engine.run host fuel = ⟨some outcome, steps, last, lastHost⟩) :
    (∃ events taken,
      lastHost.trace.toList = host.trace.toList ++ events ∧
      events.length = steps + outcome.fetched.toNat ∧
      (∀ index event, events[index]? = some event →
        (event.breaking = true ↔
          index = steps ∧ ∃ address, outcome = .suspended (.breakpoint address)) ∧
        ∃ next nextHost, engine.Completes host index next nextHost ∧ next.Fetches event) ∧
      lastHost.output.toList = host.output.toList ++ events.flatMap TraceEvent.printed ∧
      host.input.pending = taken ++ lastHost.input.pending ∧
      taken.length = (events.take steps).countP TraceEvent.reads) ∧
    ∀ (otherTraces : Bool) (other : BufferedHost), other.input = host.input →
      other.output = host.output →
      ∃ otherHost,
        (engine.withTracing otherTraces).run other fuel =
          ⟨some outcome, steps, last.withTracing otherTraces, otherHost⟩ ∧
        otherHost.output = lastHost.output ∧ otherHost.input = lastHost.input ∧
        (otherTraces = false ∨ other.recordTrace = false → otherHost.trace = other.trace) := by
  constructor
  · obtain ⟨events, taken, accounts⟩ := exists_accountsRun_of_run running traces recording ended
    refine ⟨events, taken, accounts.records.trace, accounts.length, ?_, accounts.records.output,
      accounts.records.pending, accounts.count⟩
    intro index event found
    exact ⟨accounts.breaking index event found, accounts.tells index event found⟩
  · intro otherTraces other input output
    have same := run_withTracing engine otherTraces input output fuel
    rw [ended] at same
    exact same

/-- Reads a code, prints it and halts. -/
def echoOnce : Engine := fresh (.ofList [20, 32768, 19, 32768, 0]) .standard

/-- A host with two codes to read. -/
def twoCodes : BufferedHost := { start true with input := ⟨[104, 105]⟩ }

theorem trace_tells_run_of_echoOnce :
    (echoOnce.run twoCodes 3).outcome? = some (.halted 1 .instruction) ∧
      (∃ events taken,
        (echoOnce.run twoCodes 3).host.trace.toList = events ∧ events.length = 2 + 1 ∧
        (∀ event ∈ events, event.breaking = false) ∧
        [104] = events.flatMap TraceEvent.printed ∧
        twoCodes.input.pending = taken ++ [105] ∧
        taken.length = (events.take 2).countP TraceEvent.reads) ∧
      ∃ untraced,
        (echoOnce.withTracing false).run twoCodes 3 =
          ⟨some (.halted 1 .instruction), 2,
            (echoOnce.run twoCodes 3).engine.withTracing false, untraced⟩ ∧
        untraced.output = #[104] ∧ untraced.input = ⟨[105]⟩ ∧ untraced.trace = #[] := by
  have ended : echoOnce.run twoCodes 3 = ⟨some (.halted 1 .instruction), 2, _, _⟩ := rfl
  obtain ⟨⟨events, taken, trace, length, tells, output, pending, count⟩, silent⟩ :=
    trace_tells_run (by decide) rfl rfl ended
  refine ⟨congrArg Run.outcome? ended, ⟨events, taken, trace, length, ?_, output, pending, count⟩,
    ?_⟩
  · intro event member
    obtain ⟨index, found⟩ := List.getElem?_of_mem member
    exact Bool.eq_false_iff.mpr fun breaking =>
      nomatch (((tells index event found).1.mp breaking).2).choose_spec
  · obtain ⟨untraced, runs, sameOutput, sameInput, sameTrace⟩ := silent false twoCodes rfl rfl
    exact ⟨untraced, runs, sameOutput, sameInput, sameTrace (.inl rfl)⟩

end Engine

end RegisterMachine
