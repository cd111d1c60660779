import RegisterMachine.Execute
import RegisterMachine.Host.Buffered

/-!
Contract: instructions do with their operands what the roles say.

A source counts for its value only, so another cell with the same value in its
place makes no difference. A register changes only if the first operand names
it, in a role that lets it be written. Memory changes at one address at most,
which is the value of a source or, where input is stored, an operand that names
no register.

Owns: `Instruction.Agrees`, what executions of agreeing instructions have in
common, and `Instruction.Stores`.
Does not own: the values that are stored (`Proofs.OpcodeTable`).
-/

namespace RegisterMachine

theorem Operand.register?_of_destination {operand : Word} {register : Register}
    (found : destination operand = .ok register) : register? operand = some register := by
  unfold destination at found
  split at found
  · next names =>
      cases found
      exact names
  · cases found

/-! ## Operands in the place of others -/

namespace Instruction

/-- The instruction with another cell in the place of an operand. -/
def withOperand (instruction : Instruction) (index : Nat) (cell : Word) : Instruction :=
  { instruction with
    operands := instruction.operands.set index cell
    length_operands := by rw [List.length_set, instruction.length_operands] }

/-- The other instruction has other source operands at most, and those have the same values. -/
structure Agrees (file : RegisterFile) (instruction other : Instruction) : Prop where
  address : other.address = instruction.address
  opcode : other.opcode = instruction.opcode
  operand : ∀ index, instruction.opcode.roles[index]? ≠ some .source →
    other.operand index = instruction.operand index
  value : ∀ index, Operand.resolve file (other.operand index) =
    Operand.resolve file (instruction.operand index)

variable {instruction other : Instruction} {file : RegisterFile} {machine : Machine}

theorem operand_withOperand_same {index : Nat} (cell : Word)
    (inside : index < instruction.opcode.arity) :
    (instruction.withOperand index cell).operand index = cell := by
  rw [← instruction.length_operands] at inside
  rw [operand, withOperand, List.getElem?_set_self inside, Option.getD_some]

theorem operand_withOperand_other {index place : Nat} (cell : Word) (elsewhere : place ≠ index) :
    (instruction.withOperand index cell).operand place = instruction.operand place := by
  rw [operand, withOperand, List.getElem?_set_ne elsewhere.symm, operand]

theorem agrees_withOperand {index : Nat} {cell : Word}
    (isSource : instruction.opcode.roles[index]? = some .source)
    (sameValue : Operand.resolve file cell = Operand.resolve file (instruction.operand index)) :
    instruction.Agrees file (instruction.withOperand index cell) where
  address := rfl
  opcode := rfl
  operand := by
    intro place noSource
    apply operand_withOperand_other
    rintro rfl
    exact noSource isSource
  value := by
    intro place
    by_cases here : place = index
    · obtain ⟨inside, _⟩ := List.getElem?_eq_some_iff.mp isSource
      rw [here, operand_withOperand_same cell inside, sameValue]
    · rw [operand_withOperand_other cell here]

theorem Agrees.source (agrees : instruction.Agrees machine.registers other) (index : Nat) :
    other.source machine index = instruction.source machine index :=
  agrees.value index

theorem Agrees.target (agrees : instruction.Agrees machine.registers other) (index : Nat) :
    other.target machine index = instruction.target machine index := by
  rw [Instruction.target, agrees.source, Instruction.target]

theorem Agrees.next (agrees : instruction.Agrees file other) : other.next = instruction.next := by
  rw [Instruction.next, width, agrees.address, agrees.opcode, Instruction.next, width]

/-- Instructions that agree do the same to every machine with these registers. -/
theorem Agrees.execute {H : Type} [Host H] (agrees : instruction.Agrees machine.registers other)
    (host : H) : execute other machine host = execute instruction machine host := by
  unfold RegisterMachine.execute
  rw [agrees.opcode]
  cases opcode : instruction.opcode with
  | halt | noop => rfl
  | push | jump | jumpIfTrue | jumpIfFalse | writeMemory | output =>
      simp only [agrees.source, agrees.target]
  | set | equal | greater | add | multiply | bitAnd | bitOr | bitNot | readMemory =>
      have destination := agrees.operand 0 (by rw [opcode]; decide)
      simp only [assign, destination, agrees.source, agrees.target]
  | modulo =>
      have destination := agrees.operand 0 (by rw [opcode]; decide)
      simp only [assignRemainder, destination, agrees.source, agrees.address]
  | pop =>
      have destination := agrees.operand 0 (by rw [opcode]; decide)
      simp only [popTo, destination, agrees.opcode]
  | call => simp only [callTarget, agrees.next, agrees.target]
  | «return» => simp only [returnToTop, agrees.opcode]
  | input =>
      have receiver := agrees.operand 0 (by rw [opcode]; decide)
      simp only [receive, receiver]

end Instruction

/-! ## Registers and cells that are stored in -/

namespace Instruction

/-- All that an instruction can do to registers and memory: nothing, store in the register that
its first operand names in a role for that, or store in one cell. -/
inductive Stores (instruction : Instruction) (machine : Machine) (after : Machine) : Prop where
  | nothing (registers : after.registers = machine.registers)
      (memory : after.memory = machine.memory)
  | register {register : Register} (value : Word)
      (role : instruction.opcode.roles[0]? = some .destination ∨
        instruction.opcode.roles[0]? = some .registerOrMemory)
      (names : Operand.register? (instruction.operand 0) = some register)
      (registers : after.registers = machine.registers.set register value)
      (memory : after.memory = machine.memory)
  | cell (address value : Word)
      (addressed : (instruction.opcode = .writeMemory ∧ address = instruction.source machine 0) ∨
        (instruction.opcode = .input ∧ Operand.register? (instruction.operand 0) = none ∧
          address = instruction.operand 0))
      (registers : after.registers = machine.registers)
      (memory : after.memory = machine.memory.write address value)

section
variable {H : Type} (instruction : Instruction) (machine : Machine) (host : H)

theorem stores_assign (value : Word)
    (role : instruction.opcode.roles[0]? = some .destination) :
    instruction.Stores machine (assign instruction machine host value).machine := by
  unfold assign
  split
  · exact .nothing rfl rfl
  · next register found =>
      exact .register value (.inl role) (Operand.register?_of_destination found) rfl rfl

theorem stores_assignRemainder (role : instruction.opcode.roles[0]? = some .destination) :
    instruction.Stores machine (assignRemainder instruction machine host).machine := by
  unfold assignRemainder
  split
  · exact .nothing rfl rfl
  · next register found =>
      split
      · exact .nothing rfl rfl
      · exact .register _ (.inl role) (Operand.register?_of_destination found) rfl rfl

theorem stores_popTo (role : instruction.opcode.roles[0]? = some .destination) :
    instruction.Stores machine (popTo instruction machine host).machine := by
  unfold popTo Machine.pop
  split
  · exact .nothing rfl rfl
  · next register found =>
      cases machine.stack with
      | nil => exact .nothing rfl rfl
      | cons top rest =>
          exact .register top (.inl role) (Operand.register?_of_destination found) rfl rfl

theorem stores_returnToTop :
    instruction.Stores machine (returnToTop instruction machine host).machine := by
  unfold returnToTop Machine.pop
  cases machine.stack with
  | nil => exact .nothing rfl rfl
  | cons top rest => exact .nothing rfl rfl

theorem stores_callTarget :
    instruction.Stores machine (callTarget instruction machine host).machine := by
  unfold callTarget
  split
  · exact .nothing rfl rfl
  · exact .nothing rfl rfl

theorem stores_receive [Host H] (reads : instruction.opcode = .input) :
    instruction.Stores machine (receive instruction machine host).machine := by
  unfold receive
  split
  · exact .nothing rfl rfl
  · next code _ _ =>
      split
      · next register names =>
          have role : instruction.opcode.roles[0]? = some .registerOrMemory := by rw [reads]; rfl
          exact .register code (.inr role) names rfl rfl
      · next unnamed => exact .cell _ code (.inr ⟨reads, unnamed, rfl⟩) rfl rfl

/-- What an instruction stores in is told by the roles of its operands. -/
theorem stores_execute [Host H] :
    instruction.Stores machine (execute instruction machine host).machine := by
  unfold execute
  cases opcode : instruction.opcode with
  | halt | noop | push | jump | jumpIfTrue | jumpIfFalse | output => exact .nothing rfl rfl
  | set | equal | greater | add | multiply | bitAnd | bitOr | bitNot | readMemory =>
      exact stores_assign instruction machine host _ (by rw [opcode]; rfl)
  | modulo => exact stores_assignRemainder instruction machine host (by rw [opcode]; rfl)
  | pop => exact stores_popTo instruction machine host (by rw [opcode]; rfl)
  | call => exact stores_callTarget instruction machine host
  | «return» => exact stores_returnToTop instruction machine host
  | writeMemory => exact .cell _ _ (.inl ⟨opcode, rfl⟩) rfl rfl
  | input => exact stores_receive instruction machine host opcode

end

variable {instruction : Instruction} {machine after : Machine}

/-- A register that has changed is the one that the first operand names. -/
theorem Stores.of_register {register : Register} (stores : instruction.Stores machine after)
    (changed : after.register register ≠ machine.register register) :
    (instruction.opcode.roles[0]? = some .destination ∨
      instruction.opcode.roles[0]? = some .registerOrMemory) ∧
      Operand.register? (instruction.operand 0) = some register := by
  unfold Machine.register at changed
  cases stores with
  | nothing registers _ | cell _ _ _ registers _ => exact absurd (by rw [registers]) changed
  | @register named value role names registers _ =>
      rw [registers] at changed
      by_cases same : register = named
      · rw [same]
        exact ⟨role, names⟩
      · exact absurd (RegisterFile.get_set_other machine.registers value same) changed

/-- Memory that has changed has been written once, where the instruction is told to. -/
theorem Stores.of_memory (stores : instruction.Stores machine after)
    (changed : after.memory ≠ machine.memory) :
    ∃ address value, after.memory = machine.memory.write address value ∧
      ((instruction.opcode = .writeMemory ∧ address = instruction.source machine 0) ∨
        (instruction.opcode = .input ∧ Operand.register? (instruction.operand 0) = none ∧
          address = instruction.operand 0)) := by
  cases stores with
  | nothing _ memory | register _ _ _ _ memory => exact absurd memory changed
  | cell address value addressed _ memory => exact ⟨address, value, memory, addressed⟩

end Instruction

/-- Another cell with the same value in the place of a source makes no difference to an
instruction. It changes no register but the one that its first operand names, in a role that lets
it be written, and it changes memory only where `wmem` or `in` is told to: by one write, after
which all other addresses hold what they did. -/
theorem obeys_operand_roles {H : Type} [Host H] (instruction : Instruction) (machine : Machine)
    (host : H) :
    (∀ index cell, instruction.opcode.roles[index]? = some .source →
      Operand.resolve machine.registers cell =
        Operand.resolve machine.registers (instruction.operand index) →
      execute (instruction.withOperand index cell) machine host =
        execute instruction machine host) ∧
    ∀ result after hostAfter, execute instruction machine host = ⟨result, after, hostAfter⟩ →
      (∀ register, after.register register ≠ machine.register register →
        (instruction.opcode.roles[0]? = some .destination ∨
          instruction.opcode.roles[0]? = some .registerOrMemory) ∧
          Operand.register? (instruction.operand 0) = some register) ∧
      (after.memory ≠ machine.memory →
        ∃ address value, after.memory = machine.memory.write address value ∧
          (∀ other, other ≠ address.toNat → after.read other = machine.read other) ∧
          ((instruction.opcode = .writeMemory ∧ address = instruction.source machine 0) ∨
            (instruction.opcode = .input ∧ Operand.register? (instruction.operand 0) = none ∧
              address = instruction.operand 0))) := by
  refine ⟨?_, ?_⟩
  · intro index cell isSource sameValue
    exact (Instruction.agrees_withOperand isSource sameValue).execute host
  · intro result after hostAfter executed
    have stores := Instruction.stores_execute instruction machine host
    rw [executed] at stores
    refine ⟨fun register => stores.of_register, ?_⟩
    intro changed
    obtain ⟨address, value, written, addressed⟩ := stores.of_memory changed
    refine ⟨address, value, written, ?_, addressed⟩
    intro other elsewhere
    rw [Machine.read, written, Memory.read_write, if_neg elsewhere, Machine.read]

/-- Adds five to what R1 holds, and stores the sum in R0. -/
def addsFive : Instruction := ⟨0, .add, [32768, 32769, 5], rfl⟩

/-- Stores an input code in the cell at address 2. -/
def receivesInMemory : Instruction := ⟨0, .input, [2], rfl⟩

/-- A machine with five in R1. -/
def holdsFive : Machine := (Machine.fresh (.ofList [7])).setRegister ⟨1, by decide⟩ 5

/-- What the second instruction makes of the machine. -/
def receivedInMemory : Machine := { holdsFive with memory := .ofList [7, 0, 65] }

open BufferedHost

theorem obeys_operand_roles_of_addsFive :
    execute (addsFive.withOperand 2 32769) holdsFive (start false) =
        execute addsFive holdsFive (start false) ∧
      Operand.register? (addsFive.operand 0) = some 0 ∧
      ∃ address value, receivedInMemory.memory = holdsFive.memory.write address value ∧
        (∀ other, other ≠ address.toNat → receivedInMemory.read other = holdsFive.read other) ∧
        ((receivesInMemory.opcode = .writeMemory ∧
            address = receivesInMemory.source holdsFive 0) ∨
          (receivesInMemory.opcode = .input ∧
            Operand.register? (receivesInMemory.operand 0) = none ∧
            address = receivesInMemory.operand 0)) := by
  obtain ⟨replaces, stores⟩ := obeys_operand_roles addsFive holdsFive (start false)
  obtain ⟨_, receives⟩ := obeys_operand_roles receivesInMemory holdsFive
    { start false with input := ⟨[65]⟩ }
  refine ⟨replaces 2 32769 rfl (by decide), ?_, ?_⟩
  · exact ((stores (.ok .next) (holdsFive.setRegister 0 10) (start false) rfl).1 0
      (by decide)).2
  · exact (receives (.ok .next) receivedInMemory (start false) rfl).2 (by decide)

end RegisterMachine
