import RegisterMachine.Host.Buffered
import RegisterMachine.Proofs.Cycle

/-!
Contract: an instruction raises the fault that it should, and changes nothing then.

Which fault an instruction raises is told by `Instruction.fault?` from the roles
of its opcode, its operands and the machine; of several faults the one that is
looked for first is raised. An instruction that raises a fault, and one that
waits for input, leaves machine and host as they were. The cycle of an engine
that meets a fault only halts the machine.

Owns: the faults of instructions and of cycles.
Does not own: what instructions do otherwise (`Proofs.OpcodeTable`).
-/

namespace RegisterMachine

/-- The word names no register. -/
def Operand.Unnamed (operand : Word) : Prop := operand.toNat < 32768 ∨ 32775 < operand.toNat

instance (operand : Word) : Decidable (Operand.Unnamed operand) :=
  inferInstanceAs (Decidable (_ ∨ _))

/-- The fault that an instruction raises. -/
def Instruction.fault? (instruction : Instruction) (machine : Machine) : Option Fault :=
  if instruction.opcode.roles.head? = some .destination ∧
      Operand.Unnamed (instruction.operand 0) then
    some (.notARegister (instruction.operand 0))
  else if (instruction.opcode = .pop ∨ instruction.opcode = .return) ∧ machine.stack = [] then
    some (.stackUnderflow instruction.opcode)
  else if instruction.opcode = .modulo ∧ instruction.source machine 2 = 0 then
    some (.divisionByZero instruction.address)
  else if instruction.opcode = .call ∧ 65535 < instruction.address + 2 then
    some (.returnAddressOverflow (instruction.address + 2))
  else
    none

/-- The next cycle of the engine meets a fault: it finds no instruction at the program counter, or
one that raises the fault and that no breakpoint intercepts. -/
inductive Engine.Meets (engine : Engine) (bypass : Bool) : Fault → Prop where
  | decoding {pc : Nat} {fault : Fault} (counter : engine.machine.pc = some pc)
      (found : decode engine.machine.memory pc = .fault fault) : Meets engine bypass fault
  | executing {instruction : Instruction} {fault : Fault}
      (counter : engine.machine.pc = some instruction.address)
      (fetched : decode engine.machine.memory instruction.address = .instruction instruction)
      (passes : bypass = true ∨ instruction.address ∉ engine.breakpoints)
      (raised : instruction.fault? engine.machine = some fault) : Meets engine bypass fault

/-- The execution raises the fault, if there is one, without any change to machine and host. -/
def Execution.Raises {H : Type} (execution : Execution H) (fault? : Option Fault)
    (machine : Machine) (host : H) : Prop :=
  match fault? with
  | some fault => execution = ⟨.error fault, machine, host⟩
  | none => ∃ effect, execution.result = .ok effect

namespace Operand

theorem register?_of_unnamed {operand : Word} (unnamed : Unnamed operand) :
    register? operand = none := by
  cases names : register? operand with
  | none => rfl
  | some register =>
      have bound := register.isLt
      have number := toNat_ofRegister register
      rw [ofRegister_of_register? names] at number
      unfold Unnamed at unnamed
      omega

theorem exists_register?_of_named {operand : Word} (named : ¬ Unnamed operand) :
    ∃ register, register? operand = some register := by
  have bounds : 32768 ≤ operand.toNat ∧ operand.toNat - 32768 < 8 := by
    unfold Unnamed at named
    omega
  have lower : (32768 : Word) ≤ operand := UInt16.le_iff_toNat_le.mpr bounds.1
  exact ⟨⟨operand.toNat - 32768, bounds.2⟩, by
    simp only [register?, lower, if_true, Register.ofIndex?, bounds.2, dite_true]⟩

theorem destination_of_unnamed {operand : Word} (unnamed : Unnamed operand) :
    destination operand = .error (.notARegister operand) := by
  rw [destination, register?_of_unnamed unnamed]

theorem exists_destination_of_named {operand : Word} (named : ¬ Unnamed operand) :
    ∃ register, destination operand = .ok register := by
  obtain ⟨register, names⟩ := exists_register?_of_named named
  exact ⟨register, by rw [destination, names]⟩

end Operand

/-! ## Instructions -/

namespace Instruction

variable {H : Type} (instruction : Instruction) (machine : Machine) (host : H)

theorem raises_assign (value : Word) :
    (assign instruction machine host value).Raises
      (if Operand.Unnamed (instruction.operand 0) then
        some (.notARegister (instruction.operand 0)) else none) machine host := by
  unfold assign
  by_cases unnamed : Operand.Unnamed (instruction.operand 0)
  · rw [if_pos unnamed, Operand.destination_of_unnamed unnamed]
    rfl
  · obtain ⟨register, names⟩ := Operand.exists_destination_of_named unnamed
    rw [if_neg unnamed, names]
    exact ⟨.next, rfl⟩

theorem raises_assignRemainder :
    (assignRemainder instruction machine host).Raises
      (if Operand.Unnamed (instruction.operand 0) then
        some (.notARegister (instruction.operand 0))
      else if instruction.source machine 2 = 0 then
        some (.divisionByZero instruction.address) else none) machine host := by
  unfold assignRemainder
  by_cases unnamed : Operand.Unnamed (instruction.operand 0)
  · rw [if_pos unnamed, Operand.destination_of_unnamed unnamed]
    rfl
  · obtain ⟨register, names⟩ := Operand.exists_destination_of_named unnamed
    rw [if_neg unnamed, names]
    by_cases zero : instruction.source machine 2 = 0
    · simp only [zero, if_true]
      rfl
    · simp only [zero, if_false]
      exact ⟨.next, rfl⟩

theorem raises_popTo :
    (popTo instruction machine host).Raises
      (if Operand.Unnamed (instruction.operand 0) then
        some (.notARegister (instruction.operand 0))
      else if machine.stack = [] then
        some (.stackUnderflow instruction.opcode) else none) machine host := by
  unfold popTo
  by_cases unnamed : Operand.Unnamed (instruction.operand 0)
  · rw [if_pos unnamed, Operand.destination_of_unnamed unnamed]
    rfl
  · obtain ⟨register, names⟩ := Operand.exists_destination_of_named unnamed
    rw [if_neg unnamed, names, Machine.pop]
    cases machine.stack with
    | nil => rfl
    | cons top rest => exact ⟨.next, rfl⟩

theorem raises_returnToTop :
    (returnToTop instruction machine host).Raises
      (if machine.stack = [] then
        some (.stackUnderflow instruction.opcode) else none) machine host := by
  rw [returnToTop, Machine.pop]
  cases machine.stack with
  | nil => rfl
  | cons top rest => exact ⟨.jump top.toNat, rfl⟩

theorem raises_callTarget (calls : instruction.opcode = .call) :
    (callTarget instruction machine host).Raises
      (if 65535 < instruction.address + 2 then
        some (.returnAddressOverflow (instruction.address + 2)) else none) machine host := by
  have next : instruction.next = instruction.address + 2 := by
    rw [Instruction.next, width, calls]
    rfl
  rw [callTarget, next]
  by_cases overflows : 65535 < instruction.address + 2
  · rw [if_pos overflows, if_neg (by omega)]
    rfl
  · rw [if_neg overflows, if_pos (by omega)]
    exact ⟨.jump _, rfl⟩

theorem raises_receive [Host H] : (receive instruction machine host).Raises none machine host := by
  unfold receive
  cases Host.take? host with
  | none => exact ⟨.needsInput, rfl⟩
  | some taken =>
      obtain ⟨code, after⟩ := taken
      cases Operand.register? (instruction.operand 0) with
      | none => exact ⟨.next, rfl⟩
      | some register => exact ⟨.next, rfl⟩

theorem raises_execute [Host H] :
    (execute instruction machine host).Raises (instruction.fault? machine) machine host := by
  unfold fault? execute
  cases opcode : instruction.opcode with
  | set | equal | greater | add | multiply | bitAnd | bitOr | bitNot | readMemory =>
      simpa [Opcode.roles] using raises_assign instruction machine host _
  | modulo => simpa [Opcode.roles] using raises_assignRemainder instruction machine host
  | pop => simpa [Opcode.roles, opcode] using raises_popTo instruction machine host
  | «return» => simpa [Opcode.roles, opcode] using raises_returnToTop instruction machine host
  | call => simpa [Opcode.roles] using raises_callTarget instruction machine host opcode
  | input => simpa [Opcode.roles] using raises_receive instruction machine host
  | halt => simpa [Opcode.roles] using ⟨.halt, rfl⟩
  | noop | push | writeMemory | output => simpa [Opcode.roles] using ⟨.next, rfl⟩
  | jump | jumpIfTrue | jumpIfFalse => simpa [Opcode.roles] using ⟨_, rfl⟩

theorem result_eq_error_iff [Host H] (fault : Fault) :
    (execute instruction machine host).result = .error fault ↔
      instruction.fault? machine = some fault := by
  have raises := raises_execute instruction machine host
  cases verdict : instruction.fault? machine with
  | some raised =>
      rw [verdict] at raises
      have executed : execute instruction machine host = ⟨.error raised, machine, host⟩ := raises
      rw [executed, Except.error.injEq, Option.some.injEq]
  | none =>
      rw [verdict] at raises
      obtain ⟨effect, result⟩ := raises
      rw [result]
      exact ⟨nofun, nofun⟩

theorem execute_of_fault? [Host H] {instruction : Instruction} {machine : Machine}
    {fault : Fault} (raised : instruction.fault? machine = some fault) (host : H) :
    execute instruction machine host = ⟨.error fault, machine, host⟩ := by
  have raises := raises_execute instruction machine host
  rw [raised] at raises
  exact raises

theorem result_eq_needsInput_iff [Host H] :
    (execute instruction machine host).result = .ok .needsInput ↔
      instruction.opcode = .input ∧ Host.take? host = none := by
  constructor
  · exact exhausted_of_needsInput
  · rintro ⟨reads, empty⟩
    rw [execute_of_exhausted machine reads empty]

/-- An instruction that raises a fault or waits has changed nothing. -/
theorem execute_unchanged [Host H]
    (stuck : (∃ fault, (execute instruction machine host).result = .error fault) ∨
      (execute instruction machine host).result = .ok .needsInput) :
    (execute instruction machine host).machine = machine ∧
      (execute instruction machine host).host = host := by
  rcases stuck with ⟨fault, failed⟩ | waits
  · have raised := (result_eq_error_iff instruction machine host fault).mp failed
    rw [execute_of_fault? raised]
    exact ⟨rfl, rfl⟩
  · rw [execute_of_needsInput waits]
    exact ⟨rfl, rfl⟩

end Instruction

/-! ## Cycles -/

namespace Engine

variable {H : Type}

/-- What is left of an engine that a fault has stopped. -/
def faulted (engine : Engine) (fault : Fault) : Engine :=
  { engine with
    machine := { engine.machine with pc := none, result := 1 }
    suspension := none
    reason := some (.fault fault) }

/-- A fault is raised by nothing but an execution. -/
theorem fault_of_conclude {engine : Engine} {instruction : Instruction}
    {execution : Execution H} {code : Word} {fault : Fault}
    (halts : (engine.conclude instruction execution).outcome = .halted code (.fault fault)) :
    execution.result = .error fault := by
  unfold conclude at halts
  split at halts
  · cases halts
  · cases halts
  · cases halts
  · cases halts
  · next failed =>
      cases halts
      exact failed

theorem Meets.counter_ne_none {engine : Engine} {bypass : Bool} {fault : Fault}
    (meets : engine.Meets bypass fault) : engine.machine.pc ≠ none := by
  cases meets with
  | decoding counter _ | executing counter _ _ _ =>
      rw [counter]
      exact Option.some_ne_none _

variable [Host H]

theorem handle_of_passes (engine : Engine) {bypass : Bool} {instruction : Instruction}
    (passes : bypass = true ∨ instruction.address ∉ engine.breakpoints) (host : H) :
    engine.handle host bypass instruction =
      engine.conclude instruction
        (execute instruction engine.machine
          (announce engine.config.tracing host instruction engine.machine.registers false)) := by
  have silent : (!bypass && engine.breakpoints.contains instruction.address) = false := by
    rcases passes with bypasses | free
    · rw [bypasses]
      rfl
    · have absent : engine.breakpoints.contains instruction.address = false := decide_eq_false free
      rw [absent, Bool.and_false]
  unfold handle
  simp only [silent, Bool.false_eq_true, if_false]
  rfl

/-- A fault halts the machine; the host has at most been told of the instruction. -/
theorem cycle_of_meets {engine : Engine} {bypass : Bool} {fault : Fault}
    (meets : engine.Meets bypass fault) (host : H) :
    ∃ told, (told = host ∨ ∃ instruction,
        told = announce engine.config.tracing host instruction engine.machine.registers false) ∧
      engine.cycle host bypass = ⟨.halted 1 (.fault fault), engine.faulted fault, told⟩ := by
  cases meets with
  | decoding counter found =>
      refine ⟨host, Or.inl rfl, ?_⟩
      simp only [cycle, counter, found]
      rfl
  | @executing instruction _ counter fetched passes raised =>
      refine ⟨_, Or.inr ⟨instruction, rfl⟩, ?_⟩
      have handled := handle_of_passes { engine with suspension := none } passes host
      simp only [cycle, counter, fetched, handled]
      rw [Instruction.execute_of_fault? raised]
      rfl

theorem meets_of_cycle {engine : Engine} {bypass : Bool} {host : H} {code : Word} {fault : Fault}
    (running : engine.machine.pc ≠ none)
    (halts : (engine.cycle host bypass).outcome = .halted code (.fault fault)) :
    engine.Meets bypass fault := by
  cases counter : engine.machine.pc with
  | none => exact absurd counter running
  | some pc =>
      unfold cycle at halts
      simp only [counter] at halts
      cases found : decode engine.machine.memory pc with
      | endOfProgram =>
          rw [found] at halts
          cases halts
      | fault cause =>
          rw [found] at halts
          cases halts
          exact .decoding counter found
      | instruction instruction =>
          have address := address_of_decode found
          subst address
          rw [found] at halts
          cases breaking : !bypass && engine.breakpoints.contains instruction.address with
          | true =>
              simp only [handle, breaking, if_true] at halts
              cases halts
          | false =>
              simp only [handle, breaking, Bool.false_eq_true, if_false, perform_eq_conclude]
                at halts
              have failed := fault_of_conclude halts
              refine .executing counter found ?_
                ((instruction.result_eq_error_iff engine.machine _ fault).mp failed)
              rcases Bool.and_eq_false_iff.mp breaking with bypasses | free
              · left
                cases bypass with
                | false => cases bypasses
                | true => rfl
              · right
                exact of_decide_eq_false free

end Engine

/-- An instruction raises exactly the fault that is foreseen for it and waits exactly if it lacks
input; in both cases nothing has changed. A cycle ends with a fault exactly if it meets that fault,
and then the machine has only been halted. -/
theorem faults_exactly {H : Type} [Host H] (instruction : Instruction) (machine : Machine)
    (host : H) :
    (∀ fault, (execute instruction machine host).result = .error fault ↔
      instruction.fault? machine = some fault) ∧
    ((execute instruction machine host).result = .ok .needsInput ↔
      instruction.opcode = .input ∧ Host.take? host = none) ∧
    ((∃ fault, (execute instruction machine host).result = .error fault) ∨
        (execute instruction machine host).result = .ok .needsInput →
      (execute instruction machine host).machine = machine ∧
        (execute instruction machine host).host = host) ∧
    ∀ (engine : Engine) (bypass : Bool) (fault : Fault),
      (engine.Meets bypass fault ↔ engine.machine.pc ≠ none ∧
        ∃ code, (engine.cycle host bypass).outcome = .halted code (.fault fault)) ∧
      (engine.Meets bypass fault →
        (engine.cycle host bypass).engine.machine =
          { engine.machine with pc := none, result := 1 }) := by
  refine ⟨?_, ?_, ?_, ?_⟩
  · exact instruction.result_eq_error_iff machine host
  · exact instruction.result_eq_needsInput_iff machine host
  · exact instruction.execute_unchanged machine host
  · intro engine bypass fault
    refine ⟨⟨?_, ?_⟩, ?_⟩
    · intro meets
      obtain ⟨told, _, cycled⟩ := Engine.cycle_of_meets meets host
      exact ⟨meets.counter_ne_none, 1, by rw [cycled]⟩
    · rintro ⟨running, code, halts⟩
      exact Engine.meets_of_cycle running halts
    · intro meets
      obtain ⟨told, _, cycled⟩ := Engine.cycle_of_meets meets host
      rw [cycled]
      rfl

/-- Takes a remainder by the content of R1, which is zero. -/
def zeroDivision : Instruction := ⟨0, .modulo, [32768, 5, 32769], rfl⟩

/-- About to execute `zeroDivision`. -/
def beforeZeroDivision : Engine := .fresh (.ofList zeroDivision.cells) .standard

theorem faults_exactly_of_zeroDivision :
    (execute zeroDivision beforeZeroDivision.machine (BufferedHost.start true)).result =
        .error (.divisionByZero 0) ∧
      (execute zeroDivision beforeZeroDivision.machine (BufferedHost.start true)).machine =
        beforeZeroDivision.machine ∧
      beforeZeroDivision.Meets false (.divisionByZero 0) ∧
      (beforeZeroDivision.cycle (BufferedHost.start true) false).engine.machine =
        { beforeZeroDivision.machine with pc := none, result := 1 } := by
  obtain ⟨raises, _, unchanged, meetsFault⟩ :=
    faults_exactly zeroDivision beforeZeroDivision.machine (BufferedHost.start true)
  have failed := (raises (.divisionByZero 0)).mpr rfl
  have meets : beforeZeroDivision.Meets false (.divisionByZero 0) :=
    @Engine.Meets.executing _ _ zeroDivision _ rfl rfl (Or.inr List.not_mem_nil) rfl
  exact ⟨failed, (unchanged (Or.inl ⟨_, failed⟩)).1, meets, (meetsFault _ _ _).2 meets⟩

end RegisterMachine
