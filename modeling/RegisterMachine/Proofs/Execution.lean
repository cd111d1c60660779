import RegisterMachine.Execute

/-!
Contract: what an instruction has to do with its host, and with the machine.

Only `in` and `out` look at the host. Every other instruction does the same
whatever the host is, and only `in` ever waits. No instruction makes more than
one change to the machine, apart from `pop`, which takes from the stack and
stores in a register.

Owns: executions that are free of the host, executions that wait, what an
execution can change.
Does not own: the cycle around an execution (`Proofs.Cycle`).
-/

namespace RegisterMachine

/-- An execution that does not wait and does the same on every host. -/
def HostFree (execution : ∀ {H : Type} [Host H], H → Execution H) : Prop :=
  ∃ result machine, result ≠ Except.ok Effect.needsInput ∧
    ∀ {H : Type} [Host H] (host : H), execution host = ⟨result, machine, host⟩

theorem hostFree_of_eq {execution : ∀ {H : Type} [Host H], H → Execution H}
    (result : Except Fault Effect) (machine : Machine) (settled : result ≠ .ok .needsInput)
    (uniform : ∀ {H : Type} [Host H] (host : H), execution host = ⟨result, machine, host⟩) :
    HostFree execution :=
  ⟨result, machine, settled, uniform⟩

theorem hostFree_assign (instruction : Instruction) (machine : Machine) (value : Word) :
    HostFree fun host => assign instruction machine host value := by
  unfold assign
  cases Operand.destination (instruction.operand 0) with
  | error fault => exact hostFree_of_eq (.error fault) machine nofun fun _ => rfl
  | ok register =>
      exact hostFree_of_eq (.ok .next) (machine.setRegister register value) nofun fun _ => rfl

theorem hostFree_assignRemainder (instruction : Instruction) (machine : Machine) :
    HostFree fun host => assignRemainder instruction machine host := by
  unfold assignRemainder
  cases Operand.destination (instruction.operand 0) with
  | error fault => exact hostFree_of_eq (.error fault) machine nofun fun _ => rfl
  | ok register =>
      by_cases zero : instruction.source machine 2 = 0
      · simp only [zero, if_true]
        exact hostFree_of_eq (.error (.divisionByZero _)) machine nofun fun _ => rfl
      · simp only [zero, if_false]
        exact hostFree_of_eq (.ok .next) _ nofun fun _ => rfl

theorem hostFree_popTo (instruction : Instruction) (machine : Machine) :
    HostFree fun host => popTo instruction machine host := by
  unfold popTo
  cases Operand.destination (instruction.operand 0) with
  | error fault => exact hostFree_of_eq (.error fault) machine nofun fun _ => rfl
  | ok register =>
      obtain ⟨top, rest⟩ := machine.pop
      cases top with
      | none => exact hostFree_of_eq (.error (.stackUnderflow _)) rest nofun fun _ => rfl
      | some top => exact hostFree_of_eq (.ok .next) _ nofun fun _ => rfl

theorem hostFree_returnToTop (instruction : Instruction) (machine : Machine) :
    HostFree fun host => returnToTop instruction machine host := by
  unfold returnToTop
  obtain ⟨top, rest⟩ := machine.pop
  cases top with
  | none => exact hostFree_of_eq (.error (.stackUnderflow _)) rest nofun fun _ => rfl
  | some top => exact hostFree_of_eq (.ok (.jump top.toNat)) rest nofun fun _ => rfl

theorem hostFree_callTarget (instruction : Instruction) (machine : Machine) :
    HostFree fun host => callTarget instruction machine host := by
  unfold callTarget
  by_cases fits : instruction.next < 65536
  · simp only [fits, if_true]
    exact hostFree_of_eq (.ok (.jump _)) _ nofun fun _ => rfl
  · simp only [fits, if_false]
    exact hostFree_of_eq (.error (.returnAddressOverflow _)) machine nofun fun _ => rfl

/-- Every instruction but `in` and `out` is free of the host. -/
theorem hostFree_execute (instruction : Instruction) (machine : Machine)
    (notInput : instruction.opcode ≠ .input) (notOutput : instruction.opcode ≠ .output) :
    HostFree fun host => execute instruction machine host := by
  unfold execute
  cases opcode : instruction.opcode with
  | input => contradiction
  | output => contradiction
  | pop => exact hostFree_popTo instruction machine
  | modulo => exact hostFree_assignRemainder instruction machine
  | call => exact hostFree_callTarget instruction machine
  | «return» => exact hostFree_returnToTop instruction machine
  | set | equal | greater | add | multiply | bitAnd | bitOr | bitNot | readMemory =>
      exact hostFree_assign instruction machine _
  | jumpIfTrue | jumpIfFalse =>
      simp only
      split
      · exact hostFree_of_eq (.ok (.jump _)) machine nofun fun _ => rfl
      · exact hostFree_of_eq (.ok .next) machine nofun fun _ => rfl
  | halt => exact hostFree_of_eq (.ok .halt) machine nofun fun _ => rfl
  | jump => exact hostFree_of_eq (.ok (.jump _)) machine nofun fun _ => rfl
  | noop => exact hostFree_of_eq (.ok .next) machine nofun fun _ => rfl
  | push | writeMemory => exact hostFree_of_eq (.ok .next) _ nofun fun _ => rfl

section
variable {H : Type} [Host H]

theorem execute_output {instruction : Instruction} (machine : Machine) (host : H)
    (prints : instruction.opcode = .output) :
    execute instruction machine host =
      ⟨.ok .next, machine, Host.emit host (instruction.source machine 0)⟩ := by
  unfold execute
  rw [prints]

theorem execute_input {instruction : Instruction} (machine : Machine) (host : H)
    (reads : instruction.opcode = .input) :
    execute instruction machine host = receive instruction machine host := by
  unfold execute
  rw [reads]

/-- An `in` without input waits. -/
theorem execute_of_exhausted {instruction : Instruction} {host : H} (machine : Machine)
    (reads : instruction.opcode = .input) (empty : Host.take? host = none) :
    execute instruction machine host = ⟨.ok .needsInput, machine, host⟩ := by
  rw [execute_input machine host reads]
  unfold receive
  rw [empty]

/-- Only an `in` without input waits. -/
theorem exhausted_of_needsInput {instruction : Instruction} {machine : Machine} {host : H}
    (waits : (execute instruction machine host).result = .ok .needsInput) :
    instruction.opcode = .input ∧ Host.take? host = none := by
  by_cases reads : instruction.opcode = .input
  · rw [execute_input machine host reads] at waits
    unfold receive at waits
    cases taken : Host.take? host with
    | none => exact ⟨reads, rfl⟩
    | some found =>
        rw [taken] at waits
        simp only at waits
        split at waits <;> cases waits
  · by_cases prints : instruction.opcode = .output
    · rw [execute_output machine host prints] at waits
      cases waits
    · obtain ⟨result, after, settled, uniform⟩ := hostFree_execute instruction machine reads prints
      have executed : execute instruction machine host = ⟨result, after, host⟩ := uniform host
      rw [executed] at waits
      exact absurd waits settled

/-- What waits touches nothing. -/
theorem execute_of_needsInput {instruction : Instruction} {machine : Machine} {host : H}
    (waits : (execute instruction machine host).result = .ok .needsInput) :
    execute instruction machine host = ⟨.ok .needsInput, machine, host⟩ := by
  obtain ⟨reads, empty⟩ := exhausted_of_needsInput waits
  exact execute_of_exhausted machine reads empty

end

/-! ## Changes to the machine -/

/-- All that an instruction can make of a machine. -/
inductive Machine.Altered (machine : Machine) : Machine → Prop where
  | nothing : Altered machine machine
  | register (register : Register) (value : Word) :
      Altered machine (machine.setRegister register value)
  | cell (address value : Word) : Altered machine (machine.write address value)
  | pushed (value : Word) : Altered machine (machine.push value)
  | popped {top : Word} {rest : List Word} (holds : machine.stack = top :: rest) :
      Altered machine { machine with stack := rest }
  | poppedTo (register : Register) {top : Word} {rest : List Word}
      (holds : machine.stack = top :: rest) :
      Altered machine ({ machine with stack := rest }.setRegister register top)

/-- The result is left to whoever halts the machine. -/
theorem Machine.Altered.result {machine after : Machine} (altered : machine.Altered after) :
    after.result = machine.result := by
  cases altered <;> rfl

section
variable {H : Type}

theorem altered_assign (instruction : Instruction) (machine : Machine) (host : H) (value : Word) :
    machine.Altered (assign instruction machine host value).machine := by
  unfold assign
  split
  · exact .nothing
  · exact .register _ value

theorem altered_assignRemainder (instruction : Instruction) (machine : Machine) (host : H) :
    machine.Altered (assignRemainder instruction machine host).machine := by
  unfold assignRemainder
  split
  · exact .nothing
  · split
    · exact .nothing
    · exact .register _ _

theorem altered_popTo (instruction : Instruction) (machine : Machine) (host : H) :
    machine.Altered (popTo instruction machine host).machine := by
  unfold popTo Machine.pop
  split
  · exact .nothing
  · cases holds : machine.stack with
    | nil => exact .nothing
    | cons top rest => exact .poppedTo _ holds

theorem altered_returnToTop (instruction : Instruction) (machine : Machine) (host : H) :
    machine.Altered (returnToTop instruction machine host).machine := by
  unfold returnToTop Machine.pop
  cases holds : machine.stack with
  | nil => exact .nothing
  | cons top rest => exact .popped holds

theorem altered_callTarget (instruction : Instruction) (machine : Machine) (host : H) :
    machine.Altered (callTarget instruction machine host).machine := by
  unfold callTarget
  split
  · exact .pushed _
  · exact .nothing

variable [Host H]

theorem altered_receive (instruction : Instruction) (machine : Machine) (host : H) :
    machine.Altered (receive instruction machine host).machine := by
  unfold receive
  split
  · exact .nothing
  · split
    · exact .register _ _
    · exact .cell _ _

theorem altered_execute (instruction : Instruction) (machine : Machine) (host : H) :
    machine.Altered (execute instruction machine host).machine := by
  unfold execute
  cases instruction.opcode with
  | halt | noop | jump | jumpIfTrue | jumpIfFalse | output => exact .nothing
  | set | equal | greater | add | multiply | bitAnd | bitOr | bitNot | readMemory =>
      exact altered_assign instruction machine host _
  | modulo => exact altered_assignRemainder instruction machine host
  | push => exact .pushed _
  | pop => exact altered_popTo instruction machine host
  | call => exact altered_callTarget instruction machine host
  | «return» => exact altered_returnToTop instruction machine host
  | writeMemory => exact .cell _ _
  | input => exact altered_receive instruction machine host

end

end RegisterMachine
