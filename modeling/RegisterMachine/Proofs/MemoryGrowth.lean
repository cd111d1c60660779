import RegisterMachine.Host.Buffered
import RegisterMachine.Proofs.Operation
import RegisterMachine.Proofs.Stepping

/-!
Contract: memory never shrinks, and grows no further than words can address.

A write reaches at most the last address that a word can name. An instruction
writes one cell or none, and so does an edit from outside. So whatever is done
with an engine, its memory has as many cells as before or more, up to the size
of the address space; only a program image or a saved machine brings a memory of
another size.

Owns: `Memory.Grows`, `Engine.Evolves`.
Does not own: the addresses that are computed (`Proofs.AddressBounds`).
-/

namespace RegisterMachine

/-- The number of addresses that a word can name. -/
def addressSpace : Nat := 65536

/-- The other memory is no shorter, and longer only within the address space. -/
structure Memory.Grows (memory after : Memory) : Prop where
  noShorter : memory.size ≤ after.size
  bounded : after.size ≤ max memory.size addressSpace

/-- The operation brings another memory. -/
def Operation.replacesMemory : Operation → Bool
  | .load _ | .restore _ => true
  | _ => false

/-- An engine that operations make of the first one, each of them on any host, and none of which
brings another memory. -/
inductive Engine.Evolves (first : Engine) : Engine → Prop where
  | refl : Evolves first first
  | operated {last : Engine} {H : Type} [Host H] (host : H) (operation : Operation)
      (keeps : operation.replacesMemory = false) (before : Evolves first last) :
      Evolves first (last.operate host operation).engine

namespace Memory

theorem Grows.refl (memory : Memory) : memory.Grows memory :=
  ⟨Nat.le_refl _, Nat.le_max_left _ _⟩

theorem Grows.trans {first middle last : Memory} (earlier : first.Grows middle)
    (later : middle.Grows last) : first.Grows last := by
  obtain ⟨noShorter, bounded⟩ := earlier
  obtain ⟨noShorterLater, boundedLater⟩ := later
  exact ⟨by omega, by omega⟩

theorem grows_write (memory : Memory) (address value : Word) :
    memory.Grows (memory.write address value) := by
  have inSpace : address.toNat < addressSpace := address.toNat_lt
  refine ⟨?_, ?_⟩
  · rw [size_write]
    exact Nat.le_max_left _ _
  · rw [size_write]
    omega

end Memory

theorem Machine.Altered.grows {machine after : Machine} (altered : machine.Altered after) :
    machine.memory.Grows after.memory := by
  cases altered with
  | cell address value => exact machine.memory.grows_write address value
  | nothing | register _ _ | pushed _ | popped _ | poppedTo _ _ => exact .refl machine.memory

namespace Engine

theorem memory_conclude {H : Type} (engine : Engine) (instruction : Instruction)
    (execution : Execution H) :
    (engine.conclude instruction execution).engine.machine.memory = execution.machine.memory := by
  unfold conclude
  split <;> rfl

section
variable {H : Type} [Host H]

theorem grows_handle (engine : Engine) (host : H) (bypass : Bool) (instruction : Instruction) :
    engine.machine.memory.Grows
      (engine.handle host bypass instruction).engine.machine.memory := by
  unfold handle
  simp only
  split
  · exact .refl _
  · rw [perform_eq_conclude, memory_conclude]
    exact (altered_execute _ _ _).grows

theorem grows_cycle (engine : Engine) (host : H) (bypass : Bool) :
    engine.machine.memory.Grows (engine.cycle host bypass).engine.machine.memory := by
  cases engine.cycleStart with
  | halted _ cycles | stops _ _ _ cycles =>
      rw [cycles]
      exact .refl _
  | fetches _ _ cycles =>
      rw [cycles]
      exact grows_handle { engine with suspension := none } host bypass _

end

/-- The memories of engines grow from cycle to cycle. -/
theorem keptByCycles_grows :
    KeptByCycles fun engine after => engine.machine.memory.Grows after.machine.memory where
  refl engine := .refl engine.machine.memory
  trans earlier later := earlier.trans later
  cycle engine host bypass := grows_cycle engine host bypass

theorem grows_operate {H : Type} [Host H] (engine : Engine) (host : H) {operation : Operation}
    (keeps : operation.replacesMemory = false) :
    engine.machine.memory.Grows (engine.operate host operation).engine.machine.memory := by
  cases operation with
  | step count => exact keptByCycles_grows.step engine host count
  | run fuel => exact keptByCycles_grows.run engine host fuel
  | write address value => exact engine.machine.memory.grows_write address value
  | pop =>
      have same : engine.machine.pop.2.memory = engine.machine.memory := by
        unfold Machine.pop
        split <;> rfl
      show engine.machine.memory.Grows engine.machine.pop.2.memory
      rw [same]
      exact .refl _
  | halt | jump _ | setRegister _ _ | push _ | addBreakpoint _ | removeBreakpoint _
  | clearBreakpoints => exact .refl engine.machine.memory
  | load _ | restore _ => cases keeps

theorem Evolves.grows {first last : Engine} (evolves : first.Evolves last) :
    first.machine.memory.Grows last.machine.memory := by
  induction evolves with
  | refl => exact .refl _
  | operated host operation keeps _ inductionHypothesis =>
      exact inductionHypothesis.trans (grows_operate _ host keeps)

end Engine

end RegisterMachine
