import RegisterMachine.Proofs.CodeUnits
import RegisterMachine.Proofs.HostSimulation
import RegisterMachine.Proofs.StackFrame
import RegisterMachine.Proofs.Stepping

/-!
Contract: a program that prints what it reads.

One round of the program reads a code, prints it and jumps back. The code in R0
is overwritten by the next round, so rounds only differ in what is waiting and
what has been printed. When nothing is waiting, the program pauses where it
began.

Owns: `Engine.echoAt`, its rounds and its runs, and the text that a run prints
for queued lines.
Does not own: the codes of a text (`Proofs.CodeUnits`).
-/

namespace RegisterMachine

/-! ## What matters of a host -/

/-- The codes that a host has waiting, and those that it has printed. -/
structure BufferedHost.Holds (host : BufferedHost) (waiting printed : List Word) : Prop where
  waiting : host.input.pending = waiting
  printed : host.output.toList = printed

namespace BufferedHost.Holds

variable {host : BufferedHost} {waiting printed : List Word}

theorem announce (holds : host.Holds waiting printed) (tracing : Bool) (instruction : Instruction)
    (registers : RegisterFile) (breaking : Bool) :
    (Engine.announce tracing host instruction registers breaking).Holds waiting printed := by
  constructor
  · rw [Engine.input_announce, holds.waiting]
  · rw [Engine.output_announce, holds.printed]

theorem take? {code : Word} {rest : List Word} (holds : host.Holds (code :: rest) printed) :
    ∃ left : BufferedHost, Host.take? host = some (code, left) ∧ left.Holds rest printed :=
  ⟨_, take?_of_pending_cons holds.waiting, rfl, holds.printed⟩

theorem emit (holds : host.Holds waiting printed) (code : Word) :
    BufferedHost.Holds (Host.emit host code) waiting (printed ++ [code]) := by
  refine ⟨holds.waiting, ?_⟩
  rw [← holds.printed]
  exact Array.toList_push

end BufferedHost.Holds

namespace Engine

open BufferedHost

/-! ## The instructions of the program -/

/-- Reads a code into R0, prints the content of R0 and jumps to the beginning. -/
def echoCode : List Word := [20, 32768, 19, 32768, 6, 0]

/-- The program at one of its addresses, without breakpoints and step limit. -/
def echoAt (tracing : Bool) (registers : RegisterFile) (pc : Nat) : Engine :=
  ⟨⟨.ofList echoCode, registers, [], some pc, 0⟩, .empty, ⟨tracing, none⟩, none, none⟩

variable {tracing : Bool} {registers : RegisterFile} {host : BufferedHost}
  {waiting printed : List Word}

/-- No breakpoint keeps the program from executing the instruction that it stands at. -/
theorem cycle_echoAt {pc : Nat} {instruction : Instruction}
    (stands : (echoAt tracing registers pc).StandsAt instruction) (host : BufferedHost) :
    (echoAt tracing registers pc).cycle host false =
      (echoAt tracing registers pc).conclude instruction
        (execute instruction (echoAt tracing registers pc).machine
          (announce tracing host instruction registers false)) := by
  have free : instruction.address ∉ (echoAt tracing registers pc).breakpoints := List.not_mem_nil
  rw [stands.cycle]
  exact handle_of_passes (echoAt tracing registers pc) (.inr free) host

theorem standsAt_input :
    (echoAt tracing registers 0).StandsAt (.ofCells 0 .input [32768]) := ⟨rfl, rfl⟩

theorem standsAt_output :
    (echoAt tracing registers 2).StandsAt (.ofCells 2 .output [32768]) := ⟨rfl, rfl⟩

theorem standsAt_jump :
    (echoAt tracing registers 4).StandsAt (.ofCells 4 .jump [0]) := ⟨rfl, rfl⟩

/-! ## One round -/

/-- A code that is waiting goes to R0. -/
theorem exists_cycle_of_code {code : Word} {rest : List Word}
    (holds : host.Holds (code :: rest) printed) :
    ∃ told : BufferedHost, (echoAt tracing registers 0).cycle host false =
        ⟨.completed, echoAt tracing (registers.set 0 code) 2, told⟩ ∧
      told.Holds rest printed := by
  obtain ⟨left, taken, stillHolds⟩ :=
    (holds.announce tracing (.ofCells 0 .input [32768]) registers false).take?
  refine ⟨left, ?_, stillHolds⟩
  rw [cycle_echoAt standsAt_input, execute_input _ _ rfl, receive, taken]
  rfl

/-- Without any code the program pauses at the beginning. -/
theorem exists_cycle_of_nothing (holds : host.Holds [] printed) :
    ∃ told : BufferedHost, (echoAt tracing registers 0).cycle host false =
        ⟨.suspended .needsInput,
          { echoAt tracing registers 0 with suspension := some .needsInput }, told⟩ ∧
      told.Holds [] printed := by
  have toldHolds := holds.announce tracing (.ofCells 0 .input [32768]) registers false
  refine ⟨_, ?_, toldHolds⟩
  rw [cycle_echoAt standsAt_input,
    execute_of_exhausted _ rfl (take?_of_pending_nil toldHolds.waiting)]
  rfl

/-- The content of R0 is printed. -/
theorem exists_cycle_printing (holds : host.Holds waiting printed) :
    ∃ told : BufferedHost, (echoAt tracing registers 2).cycle host false =
        ⟨.completed, echoAt tracing registers 4, told⟩ ∧
      told.Holds waiting (printed ++ [registers.get 0]) := by
  refine ⟨_, ?_,
    (holds.announce tracing (.ofCells 2 .output [32768]) registers false).emit (registers.get 0)⟩
  rw [cycle_echoAt standsAt_output, execute_output _ _ rfl]
  rfl

/-- The program jumps back. -/
theorem exists_cycle_jumping (holds : host.Holds waiting printed) :
    ∃ told : BufferedHost, (echoAt tracing registers 4).cycle host false =
        ⟨.completed, echoAt tracing registers 0, told⟩ ∧
      told.Holds waiting printed := by
  refine ⟨_, ?_, holds.announce tracing (.ofCells 4 .jump [0]) registers false⟩
  rw [cycle_echoAt standsAt_jump]
  rfl

/-- Three cycles take one code from the waiting to the printed ones. -/
theorem exists_completes_round {code : Word} {rest : List Word}
    (holds : host.Holds (code :: rest) printed) :
    ∃ told : BufferedHost,
      (echoAt tracing registers 0).Completes host 3 (echoAt tracing (registers.set 0 code) 0)
        told ∧
      told.Holds rest (printed ++ [code]) := by
  obtain ⟨afterInput, reads, holds⟩ := exists_cycle_of_code holds
  obtain ⟨afterOutput, prints, holds⟩ := exists_cycle_printing holds
  obtain ⟨afterJump, jumps, holds⟩ := exists_cycle_jumping holds
  rw [RegisterFile.get_set_same] at holds
  refine ⟨afterJump, ?_, holds⟩
  exact completes_succ_iff.mpr ⟨_, _, reads, completes_succ_iff.mpr ⟨_, _, prints,
    completes_succ_iff.mpr ⟨_, _, jumps, completes_zero _ _⟩⟩⟩

/-! ## All rounds -/

/-- Round by round, all codes that are waiting are printed. The induction is on these codes; R0 and
what has been printed before are different in each round. -/
theorem exists_completes_rounds (holds : host.Holds waiting printed) :
    ∃ (last : RegisterFile) (told : BufferedHost),
      (echoAt tracing registers 0).Completes host (3 * waiting.length) (echoAt tracing last 0)
        told ∧
      told.Holds [] (printed ++ waiting) := by
  induction waiting generalizing registers host printed with
  | nil =>
      refine ⟨registers, host, completes_zero _ _, ?_⟩
      rwa [List.append_nil]
  | cons code rest inductionHypothesis =>
      obtain ⟨afterRound, round, holds⟩ := exists_completes_round holds
      obtain ⟨last, told, later, holds⟩ := inductionHypothesis holds
      refine ⟨last, told, ?_, ?_⟩
      · have count : 3 * (code :: rest).length = 3 + 3 * rest.length := by
          rw [List.length_cons]
          omega
        rw [count]
        exact (round.cycles_add _).trans later
      · rwa [List.append_assoc, List.singleton_append] at holds

/-- A run prints all codes that are waiting and pauses for more. -/
theorem exists_run_echo (tracing : Bool) (registers : RegisterFile)
    (holds : host.Holds waiting printed) :
    ∃ (last : RegisterFile) (told : BufferedHost),
      (∀ fuel, 3 * waiting.length < fuel →
        (echoAt tracing registers 0).run host fuel =
          ⟨some (.suspended .needsInput), 3 * waiting.length,
            { echoAt tracing last 0 with suspension := some .needsInput }, told⟩) ∧
      told.Holds [] (printed ++ waiting) := by
  obtain ⟨last, served, rounds, holds⟩ := exists_completes_rounds holds
  obtain ⟨told, pauses, holds⟩ := exists_cycle_of_nothing holds
  refine ⟨last, told, ?_, holds⟩
  intro fuel enough
  exact run_eq_iff.mpr
    ⟨enough, .stopped rounds (limitReached_of_unlimited rfl _) pauses nofun⟩

/-! ## Lines of text -/

/-- A host with these lines queued. -/
def withLines (recordTrace : Bool) (lines : List String) : BufferedHost :=
  { start recordTrace with input := lines.foldl InputQueue.pushLine .empty }

theorem holds_withLines (recordTrace : Bool) (lines : List String) :
    (withLines recordTrace lines).Holds (lines.flatMap Text.lineCodes) [] :=
  ⟨InputQueue.pending_foldl_pushLine .empty lines, rfl⟩

/-- Lines that are queued for the program come back, but for their ends and the characters beyond
the basic plane: each line ends with a single line feed, and each such character becomes two
replacement characters. -/
theorem echoes_text (tracing recordTrace : Bool) (lines : List String) :
    ∃ (last : Engine) (lastHost : BufferedHost),
      (∀ fuel, 3 * (withLines recordTrace lines).input.size < fuel →
        (fresh (.ofList [20, 32768, 19, 32768, 6, 0]) ⟨tracing, none⟩).run
            (withLines recordTrace lines) fuel =
          ⟨some (.suspended .needsInput), 3 * (withLines recordTrace lines).input.size, last,
            lastHost⟩) ∧
      last.machine.pc = some 0 ∧
      lastHost.input.pending = [] ∧
      lastHost.outputText =
        String.ofList ((Text.queuedText lines).flatMap Text.printedByUnits) ∧
      (lastHost.outputText = String.ofList (Text.queuedText lines) ↔
        ∀ line ∈ lines, ∀ character ∈ Text.kept line, Text.IsBasic character) := by
  have holds := holds_withLines recordTrace lines
  have size : (withLines recordTrace lines).input.size =
      (lines.flatMap Text.lineCodes).length := congrArg List.length holds.waiting
  obtain ⟨last, lastHost, runs, lastHolds⟩ := exists_run_echo tracing .zero holds
  have printed : lastHost.outputText =
      String.ofList ((Text.queuedText lines).flatMap Text.printedByUnits) := by
    rw [outputText, lastHolds.printed, List.nil_append, Text.map_char_flatMap_lineCodes]
  refine ⟨{ echoAt tracing last 0 with suspension := some .needsInput }, lastHost, ?_, rfl,
    lastHolds.waiting, printed, ?_⟩
  · rw [size]
    exact runs
  · rw [printed, String.ofList_inj, Text.flatMap_printedByUnits_eq_self_iff]
    exact Text.forall_mem_queuedText_isBasic_iff lines

/-- A character beyond the basic plane. -/
def grin : Char := Char.ofNat 0x1f600

/-- A line with two ends, an empty line, and a line beyond the basic plane. -/
def greeting : List String := ["go\r\n", "", String.singleton grin]

theorem echoes_text_of_greeting :
    ∃ (last : Engine) (lastHost : BufferedHost),
      (fresh (.ofList [20, 32768, 19, 32768, 6, 0]) ⟨true, none⟩).run
          (withLines false greeting) 22 =
        ⟨some (.suspended .needsInput), 21, last, lastHost⟩ ∧
      last.machine.pc = some 0 ∧
      lastHost.input.pending = [] ∧
      lastHost.outputText = "go\n\n\ufffd\ufffd\n" ∧
      lastHost.outputText ≠ String.ofList (Text.queuedText greeting) := by
  obtain ⟨last, lastHost, runs, counter, empty, printed, unchanged⟩ :=
    echoes_text true false greeting
  refine ⟨last, lastHost, runs 22 (by decide), counter, empty, ?_, ?_⟩
  · rw [printed]
    decide
  · intro same
    have basic : Text.IsBasic grin :=
      unchanged.mp same (String.singleton grin) (by simp [greeting]) grin (by decide)
    exact absurd basic (by decide)

end Engine

end RegisterMachine
