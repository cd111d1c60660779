import RegisterMachine.Host
import RegisterMachine.Machine

/-!
Contract: what one instruction does.

An instruction that faults or lacks input changes nothing: destinations are
checked before anything is written, and `in` looks for input before it stores
anything. The program counter is left to the caller, who applies the effect.

Owns: `Effect`, `execute`.
Does not own: fetching, breakpoints and halting (`Engine`).
-/

namespace RegisterMachine

/-- How control goes on after an instruction. -/
inductive Effect where
  /-- With the next instruction in memory. -/
  | next
  /-- At the given address. -/
  | jump (address : Nat)
  /-- The program asked to halt. -/
  | halt
  /-- The instruction waits for input and has to be executed again. -/
  | needsInput
deriving DecidableEq, Repr

/-- The machine and its host after an instruction, with its effect or its fault. -/
structure Execution (H : Type) where
  result : Except Fault Effect
  machine : Machine
  host : H

namespace Instruction

/-- The value of the source operand at an index. -/
def source (instruction : Instruction) (machine : Machine) (index : Nat) : Word :=
  Operand.resolve machine.registers (instruction.operand index)

/-- The address in the source operand at an index. -/
def target (instruction : Instruction) (machine : Machine) (index : Nat) : Nat :=
  (instruction.source machine index).toNat

end Instruction

section
variable {H : Type}

/-- Stores a value in the register that operand 0 names. -/
def assign (instruction : Instruction) (machine : Machine) (host : H) (value : Word) :
    Execution H :=
  match Operand.destination (instruction.operand 0) with
  | .error fault => ⟨.error fault, machine, host⟩
  | .ok register => ⟨.ok .next, machine.setRegister register value, host⟩

/-- The remainder of two sources; the divisor is only looked at once the destination is known. -/
def assignRemainder (instruction : Instruction) (machine : Machine) (host : H) : Execution H :=
  match Operand.destination (instruction.operand 0) with
  | .error fault => ⟨.error fault, machine, host⟩
  | .ok register =>
      if instruction.source machine 2 = 0 then
        ⟨.error (.divisionByZero instruction.address), machine, host⟩
      else
        ⟨.ok .next, machine.setRegister register
          (instruction.source machine 1 % instruction.source machine 2), host⟩

/-- Moves the top of the stack to the register that operand 0 names. -/
def popTo (instruction : Instruction) (machine : Machine) (host : H) : Execution H :=
  match Operand.destination (instruction.operand 0) with
  | .error fault => ⟨.error fault, machine, host⟩
  | .ok register =>
      match machine.pop with
      | (none, machine) => ⟨.error (.stackUnderflow instruction.opcode), machine, host⟩
      | (some top, machine) => ⟨.ok .next, machine.setRegister register top, host⟩

/-- Jumps to the address on top of the stack. -/
def returnToTop (instruction : Instruction) (machine : Machine) (host : H) : Execution H :=
  match machine.pop with
  | (none, machine) => ⟨.error (.stackUnderflow instruction.opcode), machine, host⟩
  | (some top, machine) => ⟨.ok (.jump top.toNat), machine, host⟩

/-- Pushes the address after the call and jumps to operand 0. -/
def callTarget (instruction : Instruction) (machine : Machine) (host : H) : Execution H :=
  if instruction.next < 65536 then
    ⟨.ok (.jump (instruction.target machine 0)),
      machine.push (UInt16.ofNat instruction.next), host⟩
  else
    ⟨.error (.returnAddressOverflow instruction.next), machine, host⟩

/-- Stores the next input code in the register that operand 0 names, or else in the cell at
that very address. -/
def receive [Host H] (instruction : Instruction) (machine : Machine) (host : H) : Execution H :=
  match Host.take? host with
  | none => ⟨.ok .needsInput, machine, host⟩
  | some (code, host) =>
      match Operand.register? (instruction.operand 0) with
      | some register => ⟨.ok .next, machine.setRegister register code, host⟩
      | none => ⟨.ok .next, machine.write (instruction.operand 0) code, host⟩

/-- Executes one instruction. -/
def execute [Host H] (instruction : Instruction) (machine : Machine) (host : H) : Execution H :=
  match instruction.opcode with
  | .halt => ⟨.ok .halt, machine, host⟩
  | .noop => ⟨.ok .next, machine, host⟩
  | .set => assign instruction machine host (instruction.source machine 1)
  | .push => ⟨.ok .next, machine.push (instruction.source machine 0), host⟩
  | .pop => popTo instruction machine host
  | .equal =>
      assign instruction machine host
        (if instruction.source machine 1 = instruction.source machine 2 then 1 else 0)
  | .greater =>
      assign instruction machine host
        (if instruction.source machine 1 > instruction.source machine 2 then 1 else 0)
  | .jump => ⟨.ok (.jump (instruction.target machine 0)), machine, host⟩
  | .jumpIfTrue =>
      ⟨.ok (if instruction.source machine 0 ≠ 0 then .jump (instruction.target machine 1)
        else .next), machine, host⟩
  | .jumpIfFalse =>
      ⟨.ok (if instruction.source machine 0 = 0 then .jump (instruction.target machine 1)
        else .next), machine, host⟩
  | .add =>
      assign instruction machine host
        (UInt16.ofNat (((instruction.source machine 1).toNat +
          (instruction.source machine 2).toNat) % 32768))
  | .multiply =>
      assign instruction machine host
        (UInt16.ofNat (((instruction.source machine 1).toNat *
          (instruction.source machine 2).toNat) % 32768))
  | .modulo => assignRemainder instruction machine host
  | .bitAnd =>
      assign instruction machine host
        (instruction.source machine 1 &&& instruction.source machine 2)
  | .bitOr =>
      assign instruction machine host
        (instruction.source machine 1 ||| instruction.source machine 2)
  | .bitNot => assign instruction machine host (~~~ (instruction.source machine 1) &&& 0x7fff)
  | .readMemory => assign instruction machine host (machine.read (instruction.target machine 1))
  | .writeMemory =>
      ⟨.ok .next, machine.write (instruction.source machine 0) (instruction.source machine 1),
        host⟩
  | .call => callTarget instruction machine host
  | .return => returnToTop instruction machine host
  | .output => ⟨.ok .next, machine, Host.emit host (instruction.source machine 0)⟩
  | .input => receive instruction machine host

end

end RegisterMachine
