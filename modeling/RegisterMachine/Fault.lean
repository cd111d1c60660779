import RegisterMachine.Opcode

/-!
Contract: why a machine stops for good.

A fault is a violation of the architecture. A halt has a reason, of which a
fault is one.

Owns: `Fault`, `HaltReason`, their wording and result codes.
Does not own: when a fault arises (`Instruction.decode`, `execute`).
-/

namespace RegisterMachine

/-- A violation of the architecture, with the offending cell or address. -/
inductive Fault where
  /-- The cell at the program counter stands for no opcode. -/
  | unknownOpcode (cell : Word) (address : Nat)
  /-- A destination operand names no register. -/
  | notARegister (operand : Word)
  /-- A pop from the empty stack. -/
  | stackUnderflow (opcode : Opcode)
  /-- A remainder by zero. -/
  | divisionByZero (address : Nat)
  /-- The operand cells run past the end of memory. -/
  | truncatedInstruction (opcode : Opcode) (address : Nat)
  /-- The address to return to does not fit in a word. -/
  | returnAddressOverflow (address : Nat)
deriving DecidableEq, Repr

namespace Fault

def message : Fault → String
  | .unknownOpcode cell address => s!"bad opcode {cell.toNat} at address {address}"
  | .notARegister operand => s!"operand {operand.toNat} is not a register address"
  | .stackUnderflow opcode => s!"stack underflow on {opcode.mnemonic}"
  | .divisionByZero address => s!"division by zero at address {address}"
  | .truncatedInstruction opcode address =>
      s!"truncated {opcode.mnemonic} instruction at address {address}"
  | .returnAddressOverflow address => s!"return address {address} does not fit in a memory cell"

/-- The result code of a machine that a fault has stopped. -/
def haltCode (_ : Fault) : Word := 1

end Fault

/-- Why the machine has halted. -/
inductive HaltReason where
  /-- The program executed `halt`. -/
  | instruction
  /-- The program counter left memory. -/
  | endOfProgram
  /-- The debugger stopped the machine. -/
  | requested
  /-- The machine was restored from a snapshot of a halted one. -/
  | restored
  | fault (cause : Fault)
deriving DecidableEq, Repr

namespace HaltReason

def message : HaltReason → String
  | .instruction => "HALT"
  | .endOfProgram => "end of program"
  | .requested => "requested halt"
  | .restored => "restored halted state"
  | .fault cause => cause.message

def fault? : HaltReason → Option Fault
  | .fault cause => some cause
  | _ => none

end HaltReason

/-- The result code of a machine that executed `halt` or was stopped on request. -/
def haltedResult : Word := 1

end RegisterMachine
