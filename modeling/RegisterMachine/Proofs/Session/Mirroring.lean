import RegisterMachine.Proofs.FirstHit
import RegisterMachine.Proofs.HostSimulation
import RegisterMachine.Session

/-!
Contract: a console does what a buffered host does.

A console keeps one record of all that happens, passes on the bytes of what is
printed, and remembers the last breakpoint; a buffered host keeps codes and
events apart. A machine is served alike by both, so at any time the record is
what the buffered host holds, the bytes are the text of its codes, as long as
none was refused, and the breakpoint is the last of its events that breaks.

Owns: what a console and a buffered host have in common after a run, and what a
session can do with its engine (`Drives`).
Does not own: the files that the record goes to (`Proofs.Session.Delivery`).
-/

namespace RegisterMachine.Session

/-- The last of some events that a breakpoint caused. -/
def lastHit (events : Array TraceEvent) : Option TraceEvent := (events.filter (·.breaking)).back?

theorem lastHit_push (events : Array TraceEvent) (event : TraceEvent) :
    lastHit (events.push event) = if event.breaking then some event else lastHit events := by
  cases breaking : event.breaking <;> simp [lastHit, breaking]

/-- The console keeps in its own way what the buffered host keeps, which is told of events if
`tracing` and records all that it is told. -/
structure Mirrors (tracing records : Bool) (console : Console) (host : BufferedHost) : Prop where
  input : console.input = host.input
  printed : console.buffered.output = host.output
  observed : records = true → console.buffered.trace = host.trace
  hit : console.hit = lastHit host.trace
  kept : console.sink.refusedAt = none →
    console.sink.kept.toList = host.output.toList.flatMap encodeWord
  records : console.recordTrace = records
  recordTrace : host.recordTrace = true
  silent : tracing = false → host.trace = #[]

/-- The buffered host with this input that records all that it is told. -/
def recorder (input : InputQueue) : BufferedHost := { BufferedHost.start true with input }

variable {tracing records : Bool} {console : Console} {host : BufferedHost}

theorem mirrors_start (tracing records : Bool) (input : InputQueue) (room : Option Nat) :
    Mirrors tracing records (.start input records room) (recorder input) where
  input := rfl
  printed := by
    rw [Console.buffered_start]
    rfl
  observed _ := by
    rw [Console.buffered_start]
    rfl
  hit := rfl
  kept _ := rfl
  records := rfl
  recordTrace := rfl
  silent _ := rfl

/-- A sink that has refused nothing after a write has kept all of it. -/
theorem Sink.kept_write {sink : Sink} {bytes : Bytes}
    (accepted : (sink.write bytes).refusedAt = none) :
    sink.refusedAt = none ∧ (sink.write bytes).kept.toList = sink.kept.toList ++ bytes := by
  unfold write at accepted ⊢
  split at accepted
  · next fits =>
      rw [if_pos fits]
      exact ⟨accepted, Array.toList_appendList⟩
  · cases refused : sink.refusedAt <;> rw [refused] at accepted <;> cases accepted

theorem Mirrors.emit (mirrors : Mirrors tracing records console host) (code : Word) :
    Mirrors tracing records (Host.emit console code) (Host.emit host code) where
  input := mirrors.input
  printed := by
    rw [Console.buffered_emit]
    exact congrArg (·.push code) mirrors.printed
  observed wanted := by
    rw [Console.buffered_emit]
    exact mirrors.observed wanted
  hit := mirrors.hit
  kept accepted := by
    obtain ⟨before, grown⟩ := @Sink.kept_write console.sink _ accepted
    show (console.sink.write (encodeWord code)).kept.toList =
      (host.output.push code).toList.flatMap encodeWord
    rw [grown, mirrors.kept before, Array.toList_push, List.flatMap_append,
      List.flatMap_singleton]
  records := mirrors.records
  recordTrace := mirrors.recordTrace
  silent := mirrors.silent

theorem Mirrors.observe (mirrors : Mirrors true records console host) (event : TraceEvent) :
    Mirrors true records (Host.observe console event) (Host.observe host event) := by
  have told : Host.observe host event = { host with trace := host.trace.push event } := by
    simp only [Host.observe, mirrors.recordTrace, if_true]
  rw [told]
  refine ⟨mirrors.input, ?_, ?_, ?_, mirrors.kept, mirrors.records, mirrors.recordTrace, nofun⟩
  · rw [Console.buffered_observe, BufferedHost.output_observe]
    exact mirrors.printed
  · intro wanted
    have recording : console.buffered.recordTrace = true := mirrors.records.trans wanted
    rw [Console.buffered_observe]
    simp only [Host.observe, recording, if_true, mirrors.observed wanted]
  · rw [lastHit_push, ← mirrors.hit]
    rfl

theorem Mirrors.takes (mirrors : Mirrors tracing records console host) :
    TakesAlike (Mirrors tracing records) console host := by
  cases waiting : host.input.pending with
  | nil =>
      refine .exhausted ?_ (BufferedHost.take?_of_pending_nil waiting)
      simp only [Host.take?, mirrors.input, InputQueue.take?, waiting]
  | cons code rest =>
      have consoleTakes : Host.take? console = some (code, { console with input := ⟨rest⟩ }) := by
        simp only [Host.take?, mirrors.input, InputQueue.take?, waiting]
      refine .supplied consoleTakes (BufferedHost.take?_of_pending_cons waiting) ?_
      exact ⟨rfl, mirrors.printed, mirrors.observed, mirrors.hit, mirrors.kept, mirrors.records,
        mirrors.recordTrace, mirrors.silent⟩

theorem servesAlike_mirrors (tracing records : Bool) :
    ServesAlike (Mirrors tracing records) tracing tracing where
  emit code mirrors := mirrors.emit code
  takes mirrors := mirrors.takes
  announced instruction registers breaking mirrors := by
    cases tracing with
    | false => exact mirrors
    | true => exact mirrors.observe ⟨instruction, registers, breaking⟩

/-! ## Driving -/

/-- All that a session can do with its engine: it obeys breakpoints from the beginning, or it takes
one step past them, and goes on if that is completed. -/
inductive Drives {H : Type} [Host H] (engine : Engine) (host : H) (fuel : Nat) :
    (bypass : Bool) → Run H → Prop where
  | obeys : Drives engine host fuel false (engine.run host fuel)
  | goesOn {next : Engine} {nextHost : H}
      (cycled : engine.cycle host true = ⟨.completed, next, nextHost⟩) :
      Drives engine host fuel true
        { next.run nextHost fuel with steps := (next.run nextHost fuel).steps + 1 }
  | ended {outcome : Outcome} {last : Engine} {lastHost : H}
      (cycled : engine.cycle host true = ⟨outcome, last, lastHost⟩)
      (incomplete : outcome ≠ .completed) :
      Drives engine host fuel true ⟨some outcome, 0, last, lastHost⟩

theorem drives {H : Type} [Host H] (engine : Engine) (host : H) (bypass : Bool) (fuel : Nat) :
    Drives engine host fuel bypass (drive engine host bypass fuel) := by
  cases bypass with
  | false => exact .obeys
  | true =>
      simp only [drive, if_true, Engine.step]
      rcases cycled : engine.cycle host true with ⟨outcome, next, nextHost⟩
      cases outcome with
      | completed => exact .goesOn cycled
      | suspended _ | halted _ _ =>
          refine .ended cycled ?_
          intro completed
          cases completed

section
variable {H K : Type} [Host H] [Host K] {related : H → K → Prop} {left : H} {right : K}

theorem drive_alike {engine : Engine}
    (serves : ServesAlike related engine.config.tracing engine.config.tracing) (bypass : Bool)
    (fuel : Nat) (hosts : related left right) :
    (drive engine left bypass fuel).Alike related (drive engine right bypass fuel) := by
  cases bypass with
  | false => exact Engine.resume_alike serves 0 fuel hosts
  | true =>
      have stepped := Engine.cycle_alike serves true hosts
      have config := (Engine.settings_cycle engine left true).1
      simp only [drive, if_true, Engine.step]
      rcases cycled : engine.cycle left true with ⟨outcome, next, nextHost⟩
      rw [cycled] at stepped config
      obtain ⟨otherHost, nextRelated, rightCycle⟩ := Progress.exists_eq_of_alike stepped
      rw [rightCycle]
      cases outcome with
      | completed =>
          rw [← config] at serves
          have rest := Engine.resume_alike serves 0 fuel nextRelated
          exact ⟨rest.outcome?, congrArg (· + 1) rest.steps, rest.engine, rest.host⟩
      | suspended _ | halted _ _ => exact ⟨rfl, rfl, rfl, nextRelated⟩

/-- A breakpoint can only stop the part of a session's run that obeys breakpoints. -/
theorem exists_run_of_drive {engine : Engine} {bypass : Bool} {fuel address : Nat}
    (stopped : (drive engine left bypass fuel).outcome? =
      some (.suspended (.breakpoint address))) :
    ∃ (next : Engine) (nextHost : H), next.config = engine.config ∧
      (next.run nextHost fuel).outcome? = some (.suspended (.breakpoint address)) ∧
      (drive engine left bypass fuel).host = (next.run nextHost fuel).host := by
  have driven := drives engine left bypass fuel
  generalize drive engine left bypass fuel = run at driven stopped ⊢
  cases driven with
  | obeys => exact ⟨engine, left, rfl, stopped, rfl⟩
  | @goesOn next nextHost cycled =>
      have config := (Engine.settings_cycle engine left true).1
      rw [cycled] at config
      exact ⟨next, nextHost, config, stopped, rfl⟩
  | ended cycled _ =>
      -- The first step ignores breakpoints, so it is not what was stopped.
      have passes := Engine.cycle_bypass_not_breakpoint engine left address
      rw [cycled] at passes
      exact absurd (Option.some.inj stopped) passes

end

/-- The last event of a traced run that stopped at a breakpoint is that of the breakpoint. -/
theorem exists_lastHit_of_drive {engine : Engine} {bypass : Bool} {fuel address : Nat}
    (traces : engine.config.tracing = true)
    (recording : (drive engine host bypass fuel).host.recordTrace = true)
    (stopped : (drive engine host bypass fuel).outcome? =
      some (.suspended (.breakpoint address))) :
    ∃ event, event.breaking = true ∧ (drive engine host bypass fuel).host.trace.back? = some event ∧
      lastHit (drive engine host bypass fuel).host.trace = some event := by
  obtain ⟨next, nextHost, config, paused, same⟩ := exists_run_of_drive stopped
  rw [same] at recording ⊢
  rcases ended : next.run nextHost fuel with ⟨outcome?, steps, last, lastHost⟩
  rw [ended] at paused recording
  simp only at paused recording
  subst paused
  obtain ⟨earlier, instruction, registers, isLast⟩ := Engine.exists_announce_of_breakpoint ended
  rw [config, traces] at isLast
  rw [isLast, Engine.recordTrace_announce] at recording
  refine ⟨⟨instruction, registers, true⟩, rfl, ?_⟩
  rw [isLast]
  simp only [Engine.announce, Host.observe, recording, if_true, lastHit_push, Array.back?_push,
    and_self]

end RegisterMachine.Session
