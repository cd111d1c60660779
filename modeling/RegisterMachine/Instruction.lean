import RegisterMachine.Memory
import RegisterMachine.Operand

/-!
Contract: instructions and how they are read off memory.

An instruction occupies the cell of its opcode number and one cell for each
operand. Decoding reads memory only; it neither moves nor consults a program
counter.

Owns: `Instruction`, `Decoded`, `decode`.
Does not own: the meaning of the operands (`Execute`).
-/

namespace RegisterMachine

/-- An instruction at its address, with exactly the operand cells of its opcode. -/
structure Instruction where
  address : Nat
  opcode : Opcode
  operands : List Word
  length_operands : operands.length = opcode.arity
deriving DecidableEq, Repr

namespace Instruction

/-- The instruction with these operand cells: missing ones are zero, surplus ones are dropped. -/
def ofCells (address : Nat) (opcode : Opcode) (cells : List Word) : Instruction where
  address
  opcode
  operands := cells.take opcode.arity ++ List.replicate (opcode.arity - cells.length) 0
  length_operands := by
    simp only [List.length_append, List.length_take, List.length_replicate]
    omega

/-- The operand cell at an index, zero past the last one. -/
def operand (instruction : Instruction) (index : Nat) : Word :=
  (instruction.operands[index]?).getD 0

/-- The number of cells that the instruction occupies. -/
def width (instruction : Instruction) : Nat := 1 + instruction.opcode.arity

/-- The address of the cell after the instruction. -/
def next (instruction : Instruction) : Nat := instruction.address + instruction.width

/-- The cells that the instruction occupies. -/
def cells (instruction : Instruction) : List Word :=
  instruction.opcode.code :: instruction.operands

end Instruction

/-- What memory holds at an address. -/
inductive Decoded where
  | instruction (decoded : Instruction)
  /-- The address is past the last cell in use. -/
  | endOfProgram
  /-- The cells form no instruction. -/
  | fault (cause : Fault)
deriving DecidableEq, Repr

/-- Reads the instruction that starts at an address. -/
def decode (memory : Memory) (address : Nat) : Decoded :=
  match memory.get? address with
  | none => .endOfProgram
  | some cell =>
      match Opcode.ofCode? cell with
      | none => .fault (.unknownOpcode cell address)
      | some opcode =>
          match found : memory.slice? (address + 1) opcode.arity with
          | none => .fault (.truncatedInstruction opcode address)
          | some operands =>
              .instruction ⟨address, opcode, operands, Memory.length_of_slice? found⟩

end RegisterMachine
