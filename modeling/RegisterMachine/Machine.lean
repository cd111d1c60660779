import RegisterMachine.Memory
import RegisterMachine.Register

/-!
Contract: the complete state of one machine.

The program counter is the address of the next instruction, or absent once the
machine has halted. The result is zero until something sets it.

Owns: `Machine` and the elementary changes to its parts.
Does not own: running (`Engine`) and persistence (`Snapshot`).
-/

namespace RegisterMachine

structure Machine where
  memory : Memory
  registers : RegisterFile
  /-- The stack with its top first. -/
  stack : List Word
  /-- The address of the next instruction; absent once halted. -/
  pc : Option Nat
  result : Word
deriving DecidableEq, Repr

namespace Machine

/-- The machine that is about to execute the first cell of a memory. -/
def fresh (memory : Memory) : Machine := ⟨memory, .zero, [], some 0, 0⟩

instance : Inhabited Machine := ⟨fresh .empty⟩

/-- Puts another memory in place and everything else back to where it started. -/
def reset (_ : Machine) (memory : Memory) : Machine := fresh memory

def read (machine : Machine) (address : Nat) : Word := machine.memory.read address

def write (machine : Machine) (address value : Word) : Machine :=
  { machine with memory := machine.memory.write address value }

def register (machine : Machine) (register : Register) : Word := machine.registers.get register

def setRegister (machine : Machine) (register : Register) (value : Word) : Machine :=
  { machine with registers := machine.registers.set register value }

def push (machine : Machine) (value : Word) : Machine :=
  { machine with stack := value :: machine.stack }

/-- Takes the top of the stack, if there is one. -/
def pop (machine : Machine) : Option Word × Machine :=
  match machine.stack with
  | [] => (none, machine)
  | top :: rest => (some top, { machine with stack := rest })

/-- Moves the program counter. A halted machine goes on from there. -/
def goTo (machine : Machine) (address : Nat) : Machine := { machine with pc := some address }

def isHalted (machine : Machine) : Bool := machine.pc.isNone

/-- Records a result code and gives up the program counter. -/
def halt (machine : Machine) (code : Word) : Machine :=
  { machine with pc := none, result := code }

end Machine

end RegisterMachine
