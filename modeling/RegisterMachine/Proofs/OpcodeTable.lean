import RegisterMachine.Execute

/-!
Contract: every instruction does what its row of the opcode table says.

The table is written over views. A view names the registers and the cells of a
machine by functions, so a row says which of them change, and all others stay.
Sources are valued in the view from before the instruction, with the sums,
products and remainders of the table taken of natural numbers. A row gives
nothing where the table has the machine halt by a fault.

Owns: `View`, the rows of the table, `Execution.transition?`.
Does not own: which fault stops an instruction that its row does not cover
(`Proofs.Faults`).
-/

namespace RegisterMachine

/-- A machine with its registers and cells as functions. -/
@[ext] structure View where
  register : Register → Word
  /-- Defined for the cells in use. -/
  cell : Nat → Option Word
  /-- With its top first. -/
  stack : List Word
  pc : Option Nat
  result : Word

def Machine.view (machine : Machine) : View where
  register := machine.registers.get
  cell := machine.memory.get?
  stack := machine.stack
  pc := machine.pc
  result := machine.result

/-- How control goes on after an instruction, with what it leaves behind. -/
structure Transition (H : Type) where
  effect : Effect
  view : View
  host : H

/-- The transition of an execution that raised no fault. -/
def Execution.transition? {H : Type} (execution : Execution H) : Option (Transition H) :=
  match execution.result with
  | .ok effect => some ⟨effect, execution.machine.view, execution.host⟩
  | .error _ => none

namespace View

/-! ## Operands -/

/-- The register that an operand names. -/
def named? (operand : Word) : Option Register :=
  if named : 32768 ≤ operand.toNat ∧ operand.toNat ≤ 32775 then
    some ⟨operand.toNat - 32768, by omega⟩
  else
    none

/-- The value of a source: the content of the register that it names, or else the source itself. -/
def value (view : View) (source : Word) : Word :=
  match named? source with
  | some register => view.register register
  | none => source

/-! ## Changes -/

def assign (view : View) (register : Register) (value : Word) : View :=
  { view with register := fun other => if other = register then value else view.register other }

/-- Puts a value into a cell; the cells below it that were not in use are zero from then on. -/
def store (view : View) (address value : Word) : View :=
  { view with
    cell := fun other =>
      if other = address.toNat then some value
      else if other < address.toNat then some ((view.cell other).getD 0)
      else view.cell other }

def push (view : View) (value : Word) : View := { view with stack := value :: view.stack }

section
variable {H : Type}

/-- A row that gives its destination a value. -/
def assigned (view : View) (host : H) (destination value : Word) : Option (Transition H) :=
  (named? destination).map fun register => ⟨.next, view.assign register value, host⟩

/-! ## The table -/

/-- What an opcode at an address does with its operands. -/
def row [Host H] (view : View) (host : H) (address : Nat) (opcode : Opcode)
    (operands : List Word) : Option (Transition H) :=
  match opcode, operands with
  | .halt, [] => some ⟨.halt, view, host⟩
  | .set, [d, s] => view.assigned host d (view.value s)
  | .push, [s] => some ⟨.next, view.push (view.value s), host⟩
  | .pop, [d] =>
      match view.stack with
      | [] => none
      | top :: rest => { view with stack := rest }.assigned host d top
  | .equal, [d, s, t] => view.assigned host d (if view.value s = view.value t then 1 else 0)
  | .greater, [d, s, t] =>
      view.assigned host d (if (view.value s).toNat > (view.value t).toNat then 1 else 0)
  | .jump, [s] => some ⟨.jump (view.value s).toNat, view, host⟩
  | .jumpIfTrue, [s, t] =>
      some ⟨if view.value s = 0 then .next else .jump (view.value t).toNat, view, host⟩
  | .jumpIfFalse, [s, t] =>
      some ⟨if view.value s = 0 then .jump (view.value t).toNat else .next, view, host⟩
  | .add, [d, s, t] =>
      view.assigned host d (.ofNat (((view.value s).toNat + (view.value t).toNat) % 32768))
  | .multiply, [d, s, t] =>
      view.assigned host d (.ofNat (((view.value s).toNat * (view.value t).toNat) % 32768))
  | .modulo, [d, s, t] =>
      if view.value t = 0 then none
      else view.assigned host d (.ofNat ((view.value s).toNat % (view.value t).toNat))
  | .bitAnd, [d, s, t] =>
      view.assigned host d (.ofNat ((view.value s).toNat &&& (view.value t).toNat))
  | .bitOr, [d, s, t] =>
      view.assigned host d (.ofNat ((view.value s).toNat ||| (view.value t).toNat))
  | .bitNot, [d, s] => view.assigned host d (.ofNat ((65535 - (view.value s).toNat) % 32768))
  | .readMemory, [d, s] => view.assigned host d ((view.cell (view.value s).toNat).getD 0)
  | .writeMemory, [s, t] => some ⟨.next, view.store (view.value s) (view.value t), host⟩
  | .call, [s] =>
      -- A call occupies two cells.
      if address + 2 ≤ 65535 then
        some ⟨.jump (view.value s).toNat, view.push (.ofNat (address + 2)), host⟩
      else none
  | .return, [] =>
      match view.stack with
      | [] => none
      | top :: rest => some ⟨.jump top.toNat, { view with stack := rest }, host⟩
  | .output, [s] => some ⟨.next, view, Host.emit host (view.value s)⟩
  | .input, [m] =>
      match Host.take? host with
      | none => some ⟨.needsInput, view, host⟩
      | some (code, host) =>
          match named? m with
          | some register => some ⟨.next, view.assign register code, host⟩
          | none => some ⟨.next, view.store m code, host⟩
  | .noop, [] => some ⟨.next, view, host⟩
  | _, _ => none

end

/-! ## Machines and their views -/

theorem named?_eq (operand : Word) : named? operand = Operand.register? operand := by
  unfold named? Operand.register? Register.ofIndex?
  by_cases lower : 32768 ≤ operand.toNat
  · have lowerWord : (32768 : Word) ≤ operand := UInt16.le_iff_toNat_le.mpr lower
    by_cases upper : operand.toNat ≤ 32775
    · have inside : operand.toNat - 32768 < 8 := by omega
      simp only [lower, upper, lowerWord, inside, and_self, dite_true, if_true]
    · have outside : ¬ operand.toNat - 32768 < 8 := by omega
      simp only [upper, lowerWord, outside, and_false, dite_false, if_true]
  · have lowerWord : ¬ (32768 : Word) ≤ operand := by
      rw [UInt16.le_iff_toNat_le]
      exact lower
    simp only [lower, lowerWord, false_and, dite_false, if_false]

theorem value_view (machine : Machine) (source : Word) :
    machine.view.value source = Operand.resolve machine.registers source := by
  rw [value, named?_eq]
  rfl

theorem view_setRegister (machine : Machine) (register : Register) (value : Word) :
    (machine.setRegister register value).view = machine.view.assign register value := by
  apply View.ext
  · funext other
    show (machine.registers.set register value).get other = if other = register then value else _
    split
    · next same => rw [same, RegisterFile.get_set_same]
    · next different => exact RegisterFile.get_set_other machine.registers value different
  · rfl
  · rfl
  · rfl
  · rfl

theorem view_write (machine : Machine) (address value : Word) :
    (machine.write address value).view = machine.view.store address value := by
  apply View.ext
  · rfl
  · funext other
    exact Memory.get?_write machine.memory address value other
  · rfl
  · rfl
  · rfl

/-- A machine is determined by its view. -/
theorem view_injective {left right : Machine} (same : left.view = right.view) : left = right := by
  obtain ⟨⟨leftCells⟩, ⟨leftRegisters⟩, leftStack, leftPc, leftResult⟩ := left
  obtain ⟨⟨rightCells⟩, ⟨rightRegisters⟩, rightStack, rightPc, rightResult⟩ := right
  obtain ⟨registers, cells, rfl, rfl, rfl⟩ := View.mk.inj same
  have sameCells : leftCells = rightCells := by
    apply Array.ext_getElem?
    intro address
    exact congrFun cells address
  have sameRegisters : leftRegisters = rightRegisters := by
    apply Vector.ext
    intro index bound
    exact congrFun registers ⟨index, bound⟩
  rw [sameCells, sameRegisters]

end View

/-! ## Executions -/

namespace Instruction

open View

/-- The row of an instruction. -/
def row {H : Type} [Host H] (instruction : Instruction) (view : View) (host : H) :
    Option (Transition H) :=
  view.row host instruction.address instruction.opcode instruction.operands

/-- The operands by their places. -/
theorem operands_eq_map (instruction : Instruction) :
    instruction.operands = (List.range instruction.opcode.arity).map instruction.operand := by
  apply List.ext_getElem
  · rw [List.length_map, List.length_range, instruction.length_operands]
  · intro index inside _
    rw [List.getElem_map, List.getElem_range, operand, List.getElem?_eq_getElem inside]
    rfl

theorem operands_of_arity_one {instruction : Instruction} (one : instruction.opcode.arity = 1) :
    instruction.operands = [instruction.operand 0] := by
  rw [operands_eq_map, one]
  rfl

theorem operands_of_arity_two {instruction : Instruction} (two : instruction.opcode.arity = 2) :
    instruction.operands = [instruction.operand 0, instruction.operand 1] := by
  rw [operands_eq_map, two]
  rfl

theorem operands_of_arity_three {instruction : Instruction}
    (three : instruction.opcode.arity = 3) :
    instruction.operands =
      [instruction.operand 0, instruction.operand 1, instruction.operand 2] := by
  rw [operands_eq_map, three]
  rfl

section
variable {H : Type} (instruction : Instruction) (machine : Machine) (host : H)

theorem value_operand (index : Nat) :
    machine.view.value (instruction.operand index) = instruction.source machine index :=
  value_view machine (instruction.operand index)

theorem transition?_assign (value : Word) :
    (assign instruction machine host value).transition? =
      machine.view.assigned host (instruction.operand 0) value := by
  unfold assign Operand.destination
  rw [assigned, named?_eq]
  cases Operand.register? (instruction.operand 0) with
  | none => rfl
  | some register =>
      rw [Option.map_some, ← view_setRegister]
      rfl

theorem transition?_assignRemainder :
    (assignRemainder instruction machine host).transition? =
      if instruction.source machine 2 = 0 then none
      else machine.view.assigned host (instruction.operand 0)
        (instruction.source machine 1 % instruction.source machine 2) := by
  by_cases zero : instruction.source machine 2 = 0
  · rw [if_pos zero, assignRemainder]
    cases Operand.destination (instruction.operand 0) with
    | error fault => rfl
    | ok register =>
        simp only [zero, if_true]
        rfl
  · rw [if_neg zero, ← transition?_assign, assignRemainder, assign]
    cases Operand.destination (instruction.operand 0) with
    | error fault => rfl
    | ok register => simp only [zero, if_false]

theorem transition?_popTo :
    (popTo instruction machine host).transition? =
      match machine.stack with
      | [] => none
      | top :: rest =>
          { machine.view with stack := rest }.assigned host (instruction.operand 0) top := by
  cases stack : machine.stack with
  | nil =>
      unfold popTo Machine.pop
      simp only [stack]
      cases Operand.destination (instruction.operand 0) <;> rfl
  | cons top rest =>
      -- What is left of the pop is an assignment in the machine with the shorter stack.
      have assigns := transition?_assign instruction { machine with stack := rest } host top
      refine Eq.trans ?_ assigns
      unfold popTo assign Machine.pop
      simp only [stack]
      cases Operand.destination (instruction.operand 0) <;> rfl

theorem transition?_returnToTop :
    (returnToTop instruction machine host).transition? =
      match machine.stack with
      | [] => none
      | top :: rest => some ⟨.jump top.toNat, { machine.view with stack := rest }, host⟩ := by
  unfold returnToTop Machine.pop
  cases machine.stack <;> rfl

theorem transition?_callTarget (isCall : instruction.opcode = .call) :
    (callTarget instruction machine host).transition? =
      if instruction.address + 2 ≤ 65535 then
        some ⟨.jump (instruction.target machine 0),
          machine.view.push (.ofNat (instruction.address + 2)), host⟩
      else none := by
  have next : instruction.address + 2 = instruction.next := by
    rw [Instruction.next, width, isCall]
    rfl
  rw [next]
  unfold callTarget
  by_cases fits : instruction.next < 65536
  · rw [if_pos fits, if_pos (Nat.le_of_lt_succ fits)]
    rfl
  · have tooLarge : ¬ instruction.next ≤ 65535 := fun small => fits (Nat.lt_succ_of_le small)
    rw [if_neg fits, if_neg tooLarge]
    rfl

theorem transition?_receive [Host H] :
    (receive instruction machine host).transition? =
      match Host.take? host with
      | none => some ⟨.needsInput, machine.view, host⟩
      | some (code, host) =>
          match named? (instruction.operand 0) with
          | some register => some ⟨.next, machine.view.assign register code, host⟩
          | none => some ⟨.next, machine.view.store (instruction.operand 0) code, host⟩ := by
  unfold receive
  rw [named?_eq]
  cases Host.take? host with
  | none => rfl
  | some taken =>
      obtain ⟨code, after⟩ := taken
      cases Operand.register? (instruction.operand 0) with
      | none =>
          simp only [← view_write]
          rfl
      | some register =>
          simp only [← view_setRegister]
          rfl

end

end Instruction

/-! ## Words and numbers -/

namespace Word

theorem ofNat_and (left right : Word) :
    UInt16.ofNat (left.toNat &&& right.toNat) = left &&& right := by
  rw [← UInt16.toNat_and, UInt16.ofNat_toNat]

theorem ofNat_or (left right : Word) :
    UInt16.ofNat (left.toNat ||| right.toNat) = left ||| right := by
  rw [← UInt16.toNat_or, UInt16.ofNat_toNat]

theorem ofNat_mod (left right : Word) :
    UInt16.ofNat (left.toNat % right.toNat) = left % right := by
  rw [← UInt16.toNat_mod, UInt16.ofNat_toNat]

/-- The complement of the low fifteen bits, as a number. -/
theorem ofNat_complement (word : Word) :
    UInt16.ofNat ((65535 - word.toNat) % 32768) = ~~~ word &&& 0x7fff := by
  have masked : (~~~ word &&& 0x7fff : Word).toNat = (65535 - word.toNat) % 32768 := by
    rw [UInt16.toNat_and, UInt16.toNat_not]
    exact Nat.and_two_pow_sub_one_eq_mod (65535 - word.toNat) 15
  rw [← masked, UInt16.ofNat_toNat]

end Word

section
variable {H : Type}

theorem transition?_eq_some_iff {execution : Execution H} {effect : Effect} {after : Machine}
    {hostAfter : H} :
    execution.transition? = some ⟨effect, after.view, hostAfter⟩ ↔
      execution = ⟨.ok effect, after, hostAfter⟩ := by
  constructor
  · intro found
    obtain ⟨result, machine, host⟩ := execution
    cases result with
    | error fault => contradiction
    | ok other =>
        obtain ⟨rfl, sameView, rfl⟩ := Transition.mk.inj (Option.some.inj found)
        have sameMachine : machine = after := View.view_injective sameView
        rw [sameMachine]
  · intro same
    rw [same]
    rfl

variable [Host H]

open Instruction

/-- An execution without a fault makes the transition of its row, and a row without a transition
stands for a fault. -/
theorem transition?_execute (instruction : Instruction) (machine : Machine) (host : H) :
    (execute instruction machine host).transition? = instruction.row machine.view host := by
  have value := value_operand instruction machine
  have assigns := transition?_assign instruction machine host
  unfold Instruction.row View.row execute
  cases opcode : instruction.opcode with
  | halt | noop =>
      have none : instruction.operands = [] := by
        rw [operands_eq_map, opcode]
        rfl
      rw [none]
      rfl
  | «return» =>
      have none : instruction.operands = [] := by
        rw [operands_eq_map, opcode]
        rfl
      rw [none]
      exact transition?_returnToTop instruction machine host
  | push | jump | output =>
      rw [operands_of_arity_one (by rw [opcode]; rfl)]
      simp only [value]
      rfl
  | pop =>
      rw [operands_of_arity_one (by rw [opcode]; rfl)]
      exact transition?_popTo instruction machine host
  | call =>
      rw [operands_of_arity_one (by rw [opcode]; rfl)]
      simp only [value]
      exact transition?_callTarget instruction machine host opcode
  | input =>
      rw [operands_of_arity_one (by rw [opcode]; rfl)]
      exact transition?_receive instruction machine host
  | set | readMemory =>
      rw [operands_of_arity_two (by rw [opcode]; rfl)]
      simp only [value]
      exact assigns _
  | bitNot =>
      rw [operands_of_arity_two (by rw [opcode]; rfl)]
      simp only [value, Word.ofNat_complement]
      exact assigns _
  | jumpIfTrue | jumpIfFalse =>
      rw [operands_of_arity_two (by rw [opcode]; rfl)]
      simp only [value, ne_eq, ite_not]
      rfl
  | writeMemory =>
      rw [operands_of_arity_two (by rw [opcode]; rfl)]
      simp only [value, ← View.view_write]
      rfl
  | equal | add | multiply =>
      rw [operands_of_arity_three (by rw [opcode]; rfl)]
      simp only [value]
      exact assigns _
  | greater =>
      rw [operands_of_arity_three (by rw [opcode]; rfl)]
      simp only [value, gt_iff_lt, ← UInt16.lt_iff_toNat_lt]
      exact assigns _
  | modulo =>
      rw [operands_of_arity_three (by rw [opcode]; rfl)]
      simp only [value, Word.ofNat_mod]
      exact transition?_assignRemainder instruction machine host
  | bitAnd =>
      rw [operands_of_arity_three (by rw [opcode]; rfl)]
      simp only [value, Word.ofNat_and]
      exact assigns _
  | bitOr =>
      rw [operands_of_arity_three (by rw [opcode]; rfl)]
      simp only [value, Word.ofNat_or]
      exact assigns _

/-- What an instruction without a fault does is what its row says: the effect, every register and
cell, the stack, the counter, the result and the host afterwards. -/
theorem execute_eq_iff_row (instruction : Instruction) (machine after : Machine) (host hostAfter : H)
    (effect : Effect) :
    execute instruction machine host = ⟨.ok effect, after, hostAfter⟩ ↔
      instruction.row machine.view host = some ⟨effect, after.view, hostAfter⟩ := by
  rw [← transition?_execute]
  exact transition?_eq_some_iff.symm

end

end RegisterMachine
