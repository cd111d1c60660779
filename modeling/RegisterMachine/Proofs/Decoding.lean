import RegisterMachine.Instruction

/-!
Contract: what decoding makes of the cells at an address.

Memory ends at its size. An address at or past it holds no instruction; one
before it holds an instruction exactly if its cell is the number of an opcode
and memory holds all operands of that opcode. The cells of an instruction are
those of memory.

Owns: slices as parts of the list of cells, `DecodedAt`.
Does not own: walks over memory (`Proofs.Listing.Tiling`).
-/

namespace RegisterMachine

namespace Memory

variable {memory : Memory} {address start count : Nat} {words : List Word}

theorem getElem?_toList (memory : Memory) (address : Nat) :
    memory.toList[address]? = memory.get? address := by
  rw [toList, Array.getElem?_toList]
  rfl

theorem get?_eq_none_iff : memory.get? address = none ↔ memory.size ≤ address :=
  Array.getElem?_eq_none_iff

theorem lt_size_of_get? {cell : Word} (holds : memory.get? address = some cell) :
    address < memory.size := by
  apply Nat.lt_of_not_le
  intro past
  rw [get?_eq_none_iff.mpr past] at holds
  contradiction

/-- The cells from an address on begin with the cell at that address. -/
theorem drop_of_get? {cell : Word} (holds : memory.get? address = some cell) :
    memory.toList.drop address = cell :: memory.toList.drop (address + 1) := by
  rw [← getElem?_toList] at holds
  obtain ⟨inside, isCell⟩ := List.getElem?_eq_some_iff.mp holds
  rw [List.drop_eq_getElem_cons inside, isCell]

/-- A slice that begins in memory is found exactly if it ends there. -/
theorem slice?_eq_some_iff (inside : start ≤ memory.size) :
    memory.slice? start count = some words ↔
      start + count ≤ memory.size ∧ (memory.toList.drop start).take count = words := by
  induction count generalizing start words with
  | zero => simp [slice?, inside]
  | succ count inductionHypothesis =>
      unfold slice?
      cases holds : memory.get? start with
      | none =>
          have past := get?_eq_none_iff.mp holds
          simp only [reduceCtorEq, false_iff]
          omega
      | some cell =>
          have later (rest : List Word) := @inductionHypothesis (start + 1) rest
            (lt_size_of_get? holds)
          have bounds : start + 1 + count ≤ memory.size ↔ start + (count + 1) ≤ memory.size := by
            omega
          rw [Option.map_eq_some_iff, drop_of_get? holds, List.take_succ_cons]
          simp only [later, bounds]
          constructor
          · rintro ⟨rest, ⟨ends, rfl⟩, rfl⟩
            exact ⟨ends, rfl⟩
          · rintro ⟨ends, rfl⟩
            exact ⟨_, ⟨ends, rfl⟩, rfl⟩

theorem slice?_eq_none_iff (inside : start ≤ memory.size) :
    memory.slice? start count = none ↔ memory.size < start + count := by
  rw [Option.eq_none_iff_forall_ne_some]
  constructor
  · intro missing
    apply Nat.lt_of_not_le
    intro ends
    exact missing _ ((slice?_eq_some_iff inside).mpr ⟨ends, rfl⟩)
  · intro cut words found
    have ends := ((slice?_eq_some_iff inside).mp found).1
    omega

end Memory

/-- What memory can hold at an address, and what decoding makes of it. -/
inductive DecodedAt (memory : Memory) (address : Nat) : Decoded → Prop where
  | past (past : memory.size ≤ address) : DecodedAt memory address .endOfProgram
  | unnamed {cell : Word} (holds : memory.get? address = some cell)
      (unnamed : ∀ opcode : Opcode, opcode.code ≠ cell) :
      DecodedAt memory address (.fault (.unknownOpcode cell address))
  | truncated {opcode : Opcode} (holds : memory.get? address = some opcode.code)
      (cut : memory.size < address + (1 + opcode.arity)) :
      DecodedAt memory address (.fault (.truncatedInstruction opcode address))
  | complete {instruction : Instruction} (stands : instruction.address = address)
      (holds : memory.get? address = some instruction.opcode.code)
      (ends : instruction.next ≤ memory.size)
      (cells : (memory.toList.drop address).take instruction.width = instruction.cells) :
      DecodedAt memory address (.instruction instruction)

/-- Decoding distinguishes what memory can hold. -/
theorem decodedAt (memory : Memory) (address : Nat) :
    DecodedAt memory address (decode memory address) := by
  unfold decode
  split
  · next missing => exact .past (Memory.get?_eq_none_iff.mp missing)
  · next cell holds =>
      have inside := Memory.lt_size_of_get? holds
      split
      · next unknown =>
          refine .unnamed holds ?_
          rintro opcode rfl
          rw [Opcode.ofCode?_code] at unknown
          contradiction
      · next opcode found =>
          have isCode := Opcode.code_of_ofCode? found
          rw [← isCode] at holds
          split
          · next missing =>
              have cut := (Memory.slice?_eq_none_iff inside).mp missing
              exact .truncated holds (by omega)
          · next operands sliced =>
              obtain ⟨ends, isSlice⟩ := (Memory.slice?_eq_some_iff inside).mp sliced
              refine .complete rfl holds ?_ ?_
              · simp only [Instruction.next, Instruction.width]
                omega
              · rw [Instruction.width, Nat.add_comm, Memory.drop_of_get? holds, List.take_succ_cons,
                  isSlice]
                rfl

/-- An instruction ends where memory ends or before. -/
theorem next_le_of_decode {memory : Memory} {address : Nat} {instruction : Instruction}
    (decoded : decode memory address = .instruction instruction) :
    instruction.next ≤ memory.size := by
  have holding := decodedAt memory address
  rw [decoded] at holding
  cases holding with
  | complete _ _ ends _ => exact ends

/-- As many cells as the opcode takes are the operands. -/
theorem Instruction.ofCells_of_length {address : Nat} {opcode : Opcode} {cells : List Word}
    (length : cells.length = opcode.arity) :
    ofCells address opcode cells = ⟨address, opcode, cells, length⟩ := by
  simp only [ofCells, ← length, List.take_length, Nat.sub_self, List.replicate_zero,
    List.append_nil]

end RegisterMachine
