import RegisterMachine.Word

/-!
Contract: the instruction set as a table.

Every opcode has a number, a mnemonic and one role for each operand cell that
follows it in memory. The role says how the operand is used; the arity is the
number of roles.

Owns: `Opcode`, `Role`, numbers, mnemonics, roles.
Does not own: what an instruction does (`Execute`).
-/

namespace RegisterMachine

/-- How an instruction uses one of its operands. -/
inductive Role where
  /-- The operand names the register that receives the result. -/
  | destination
  /-- The operand is a value, or names the register that holds it. -/
  | source
  /-- The operand names a register, or is the address of a cell, to be written. -/
  | registerOrMemory
deriving DecidableEq, Repr, Inhabited

inductive Opcode where
  | halt
  | set
  | push
  | pop
  | equal
  | greater
  | jump
  | jumpIfTrue
  | jumpIfFalse
  | add
  | multiply
  | modulo
  | bitAnd
  | bitOr
  | bitNot
  | readMemory
  | writeMemory
  | call
  | return
  | output
  | input
  | noop
deriving DecidableEq, Repr, Inhabited

namespace Opcode

/-- The opcodes in the order of their numbers. -/
def all : Array Opcode :=
  #[.halt, .set, .push, .pop, .equal, .greater, .jump, .jumpIfTrue, .jumpIfFalse, .add,
    .multiply, .modulo, .bitAnd, .bitOr, .bitNot, .readMemory, .writeMemory, .call, .return,
    .output, .input, .noop]

/-- The number that stands for the opcode in memory. -/
def code : Opcode → Word
  | .halt => 0
  | .set => 1
  | .push => 2
  | .pop => 3
  | .equal => 4
  | .greater => 5
  | .jump => 6
  | .jumpIfTrue => 7
  | .jumpIfFalse => 8
  | .add => 9
  | .multiply => 10
  | .modulo => 11
  | .bitAnd => 12
  | .bitOr => 13
  | .bitNot => 14
  | .readMemory => 15
  | .writeMemory => 16
  | .call => 17
  | .return => 18
  | .output => 19
  | .input => 20
  | .noop => 21

/-- The opcode that a memory cell stands for. -/
def ofCode? (cell : Word) : Option Opcode := all[cell.toNat]?

/-- The name in listings. -/
def mnemonic : Opcode → String
  | .halt => "halt"
  | .set => "set"
  | .push => "push"
  | .pop => "pop"
  | .equal => "eq"
  | .greater => "gt"
  | .jump => "jmp"
  | .jumpIfTrue => "jt"
  | .jumpIfFalse => "jf"
  | .add => "add"
  | .multiply => "mult"
  | .modulo => "mod"
  | .bitAnd => "and"
  | .bitOr => "or"
  | .bitNot => "not"
  | .readMemory => "rmem"
  | .writeMemory => "wmem"
  | .call => "call"
  | .return => "ret"
  | .output => "out"
  | .input => "in"
  | .noop => "noop"

/-- The opcode with this mnemonic; ASCII letters match in either case. -/
def ofMnemonic? (name : String) : Option Opcode :=
  all.find? fun opcode => opcode.mnemonic == name.map Char.toLower

/-- The roles of the operand cells, in memory order. -/
def roles : Opcode → List Role
  | .halt | .return | .noop => []
  | .pop => [.destination]
  | .push | .jump | .call | .output => [.source]
  | .input => [.registerOrMemory]
  | .set | .bitNot | .readMemory => [.destination, .source]
  | .jumpIfTrue | .jumpIfFalse | .writeMemory => [.source, .source]
  | .equal | .greater | .add | .multiply | .modulo | .bitAnd | .bitOr =>
      [.destination, .source, .source]

/-- The number of operand cells. -/
def arity (opcode : Opcode) : Nat := opcode.roles.length

theorem ofCode?_code (opcode : Opcode) : ofCode? opcode.code = some opcode := by
  cases opcode <;> rfl

theorem code_of_ofCode? {cell : Word} {opcode : Opcode} (found : ofCode? cell = some opcode) :
    opcode.code = cell := by
  obtain ⟨bound, _⟩ := Array.getElem?_eq_some_iff.mp found
  have small : cell.toNat < 22 := bound
  have each : ∀ index : Fin 22,
      all[index.val]?.map (fun opcode => opcode.code.toNat) = some index.val := by decide
  have atCell := each ⟨cell.toNat, small⟩
  rw [show all[cell.toNat]? = some opcode from found] at atCell
  exact UInt16.toNat_inj.mp (Option.some.inj atCell)

/-- A cell that stands for an opcode is described by its value and the mnemonic, any other
by its value alone. -/
def describeCell (cell : Word) : String :=
  match ofCode? cell with
  | some opcode => s!"{cell.toNat} ({opcode.mnemonic})"
  | none => toString cell.toNat

end Opcode

end RegisterMachine
