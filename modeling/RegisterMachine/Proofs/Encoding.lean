import RegisterMachine.Proofs.Decoding

/-!
Contract: decoding inverts the encoding of instructions.

The cells of an instruction are the number of its opcode and then its operands.
Decoding gives an instruction exactly where these cells stand in memory, so it
depends on no other cell, and not on where memory ends. Where no instruction
stands, it tells why: memory has ended before the opcode or before the last
operand, or the cell is larger than every opcode number.

Owns: `Instruction.StandsIn`, and decoding read in both directions.
Does not own: how decoding goes about it (`Proofs.Decoding`), rows of a listing
(`Proofs.Listing.Tiling`).
-/

namespace RegisterMachine

namespace Opcode

theorem code_le (opcode : Opcode) : opcode.code.toNat ≤ 21 := by
  cases opcode <;> decide

theorem ofCode?_eq_none_iff {cell : Word} : ofCode? cell = none ↔ 21 < cell.toNat :=
  Array.getElem?_eq_none_iff

/-- The numbers of opcodes leave no gap up to the last one. -/
theorem unnamed_iff {cell : Word} : (∀ opcode : Opcode, opcode.code ≠ cell) ↔ 21 < cell.toNat := by
  constructor
  · intro unnamed
    apply ofCode?_eq_none_iff.mp
    apply Option.eq_none_iff_forall_ne_some.mpr
    intro opcode found
    exact unnamed opcode (code_of_ofCode? found)
  · rintro large opcode rfl
    have small := opcode.code_le
    omega

end Opcode

theorem Memory.length_toList (memory : Memory) : memory.toList.length = memory.size :=
  Array.length_toList

namespace Instruction

variable {instruction : Instruction} {memory other : Memory}

/-- The cells of the instruction are those of memory from its address on. -/
def StandsIn (instruction : Instruction) (memory : Memory) : Prop :=
  (memory.toList.drop instruction.address).take instruction.width = instruction.cells

theorem length_cells (instruction : Instruction) :
    instruction.cells.length = instruction.width := by
  rw [cells, List.length_cons, instruction.length_operands, width, Nat.add_comm]

/-- Memory holds the cells of the instruction one by one. -/
theorem standsIn_iff :
    instruction.StandsIn memory ↔
      ∀ offset, offset < instruction.width →
        memory.get? (instruction.address + offset) = instruction.cells[offset]? := by
  simp only [← Memory.getElem?_toList]
  constructor
  · intro stands offset inside
    rw [← stands, List.getElem?_take_of_lt inside, List.getElem?_drop]
  · intro holds
    apply List.ext_getElem?
    intro offset
    by_cases inside : offset < instruction.width
    · rw [List.getElem?_take_of_lt inside, List.getElem?_drop, holds offset inside]
    · have past : instruction.width ≤ offset := Nat.le_of_not_lt inside
      rw [List.getElem?_eq_none (Nat.le_trans (List.length_take_le _ _) past),
        List.getElem?_eq_none (instruction.length_cells ▸ past)]

/-- Whether an instruction stands in memory is up to the cells that it occupies. -/
theorem StandsIn.congr (stands : instruction.StandsIn memory)
    (same : ∀ offset, offset < instruction.width →
      other.get? (instruction.address + offset) = memory.get? (instruction.address + offset)) :
    instruction.StandsIn other := by
  apply standsIn_iff.mpr
  intro offset inside
  rw [same offset inside]
  exact standsIn_iff.mp stands offset inside

theorem StandsIn.holds (stands : instruction.StandsIn memory) :
    memory.get? instruction.address = some instruction.opcode.code := by
  have first : 0 < instruction.width := Nat.add_pos_left Nat.one_pos _
  exact standsIn_iff.mp stands 0 first

theorem StandsIn.next_le (stands : instruction.StandsIn memory) :
    instruction.next ≤ memory.size := by
  have length := congrArg List.length stands
  rw [length_cells, List.length_take, List.length_drop, Memory.length_toList] at length
  have inside := Memory.lt_size_of_get? stands.holds
  simp only [next]
  omega

/-- The cells after the opcode are the operands. -/
theorem StandsIn.operands (stands : instruction.StandsIn memory) :
    (memory.toList.drop (instruction.address + 1)).take instruction.opcode.arity =
      instruction.operands := by
  have holds := stands.holds
  rw [StandsIn, width, Nat.add_comm, Memory.drop_of_get? holds, List.take_succ_cons] at stands
  exact List.tail_eq_of_cons_eq stands

/-- An opcode and as many cells after it as it takes form an instruction. -/
theorem standsIn_ofCells {address : Nat} {opcode : Opcode}
    (holds : memory.get? address = some opcode.code)
    (ends : address + opcode.arity < memory.size) :
    (ofCells address opcode
      ((memory.toList.drop (address + 1)).take opcode.arity)).StandsIn memory := by
  have length : ((memory.toList.drop (address + 1)).take opcode.arity).length = opcode.arity := by
    rw [List.length_take, List.length_drop, Memory.length_toList]
    omega
  rw [ofCells_of_length length, StandsIn, width, Nat.add_comm, Memory.drop_of_get? holds,
    List.take_succ_cons]
  rfl

/-- The cells of an instruction stand in memory wherever it has been put. -/
theorem standsIn_ofList (before after : List Word) (isThere : before.length = instruction.address) :
    instruction.StandsIn (.ofList (before ++ instruction.cells ++ after)) := by
  show ((before ++ instruction.cells ++ after).drop instruction.address).take _ = _
  rw [List.append_assoc, ← isThere, List.drop_left, ← length_cells, List.take_left]

end Instruction

/-! ## Decoding in both directions -/

section
variable {memory other : Memory} {address : Nat} {decoded : Decoded} {instruction : Instruction}

theorem decode_of_decodedAt (holding : DecodedAt memory address decoded) :
    decode memory address = decoded := by
  cases holding with
  | past past => rw [decode, Memory.get?_eq_none_iff.mpr past]
  | unnamed holds unnamed =>
      have unknown := Opcode.ofCode?_eq_none_iff.mpr (Opcode.unnamed_iff.mp unnamed)
      simp only [decode, holds, unknown]
  | @truncated opcode holds cut =>
      have inside := Memory.lt_size_of_get? holds
      simp only [decode, holds, Opcode.ofCode?_code]
      split
      · rfl
      · next operands found =>
          have ends := ((Memory.slice?_eq_some_iff inside).mp found).1
          omega
  | @complete instruction stands holds ends cells =>
      have inside := Memory.lt_size_of_get? holds
      rw [Instruction.width, Nat.add_comm, Memory.drop_of_get? holds, List.take_succ_cons] at cells
      simp only [decode, holds, Opcode.ofCode?_code]
      split
      · next missing =>
          have cut := (Memory.slice?_eq_none_iff inside).mp missing
          simp only [Instruction.next, Instruction.width] at ends
          omega
      · next operands found =>
          have isSlice := ((Memory.slice?_eq_some_iff inside).mp found).2
          rw [isSlice] at cells
          obtain ⟨address, opcode, others, length⟩ := instruction
          cases stands
          cases List.tail_eq_of_cons_eq cells
          rfl

/-- Decoding gives what memory holds, and nothing else. -/
theorem decode_eq_iff : decode memory address = decoded ↔ DecodedAt memory address decoded := by
  constructor
  · rintro rfl
    exact decodedAt memory address
  · exact decode_of_decodedAt

theorem decode_eq_endOfProgram_iff :
    decode memory address = .endOfProgram ↔ memory.size ≤ address := by
  rw [decode_eq_iff]
  constructor
  · rintro ⟨past⟩
    exact past
  · exact .past

theorem decode_eq_fault_iff {fault : Fault} :
    decode memory address = .fault fault ↔
      (∃ cell, memory.get? address = some cell ∧ 21 < cell.toNat ∧
        fault = .unknownOpcode cell address) ∨
      ∃ opcode : Opcode, memory.get? address = some opcode.code ∧
        memory.size ≤ address + opcode.arity ∧ fault = .truncatedInstruction opcode address := by
  rw [decode_eq_iff]
  constructor
  · intro holding
    cases holding with
    | unnamed holds unnamed => exact .inl ⟨_, holds, Opcode.unnamed_iff.mp unnamed, rfl⟩
    | truncated holds cut => exact .inr ⟨_, holds, by omega, rfl⟩
  · rintro (⟨cell, holds, large, rfl⟩ | ⟨opcode, holds, cut, rfl⟩)
    · exact .unnamed holds (Opcode.unnamed_iff.mpr large)
    · exact .truncated holds (by omega)

/-- Decoding gives an instruction exactly where its cells stand. -/
theorem decode_eq_instruction_iff :
    decode memory address = .instruction instruction ↔
      instruction.address = address ∧ instruction.StandsIn memory := by
  rw [decode_eq_iff]
  constructor
  · intro holding
    cases holding with
    | complete stands _ _ cells =>
        subst stands
        exact ⟨rfl, cells⟩
  · rintro ⟨rfl, stands⟩
    exact .complete rfl stands.holds stands.next_le stands

/-- The instruction is made of the opcode and of as many cells after it as the opcode takes. -/
theorem decode_eq_ofCells_iff :
    decode memory address = .instruction instruction ↔
      ∃ opcode : Opcode, memory.get? address = some opcode.code ∧
        address + opcode.arity < memory.size ∧
        instruction =
          .ofCells address opcode ((memory.toList.drop (address + 1)).take opcode.arity) := by
  rw [decode_eq_instruction_iff]
  constructor
  · rintro ⟨rfl, stands⟩
    have ends : instruction.address + (1 + instruction.opcode.arity) ≤ memory.size :=
      stands.next_le
    refine ⟨instruction.opcode, stands.holds, by omega, ?_⟩
    rw [stands.operands, Instruction.ofCells_of_length instruction.length_operands]
  · rintro ⟨opcode, holds, ends, rfl⟩
    exact ⟨rfl, Instruction.standsIn_ofCells holds ends⟩

/-- Decoding answers for the cells that stand at an address: the end of the program past the last
one, a fault where they form no instruction, and otherwise the instruction that they encode; it
finds what is encoded among any other cells, and looks at no other cells than those. -/
theorem decoding_inverts_encoding :
    (∀ (memory : Memory) (address : Nat),
      (decode memory address = .endOfProgram ↔ memory.size ≤ address) ∧
      (∀ fault, decode memory address = .fault fault ↔
        (∃ cell, memory.get? address = some cell ∧ 21 < cell.toNat ∧
          fault = .unknownOpcode cell address) ∨
        ∃ opcode : Opcode, memory.get? address = some opcode.code ∧
          memory.size ≤ address + opcode.arity ∧
          fault = .truncatedInstruction opcode address) ∧
      ∀ instruction, decode memory address = .instruction instruction ↔
        ∃ opcode : Opcode, memory.get? address = some opcode.code ∧
          address + opcode.arity < memory.size ∧
          instruction =
            .ofCells address opcode ((memory.toList.drop (address + 1)).take opcode.arity)) ∧
    (∀ {memory : Memory} {address : Nat} {instruction : Instruction},
      decode memory address = .instruction instruction →
        instruction.opcode.code :: instruction.operands =
          (memory.toList.drop address).take instruction.width) ∧
    (∀ (before after operands : List Word) (opcode : Opcode), operands.length = opcode.arity →
      decode (.ofList (before ++ opcode.code :: operands ++ after)) before.length =
        .instruction (.ofCells before.length opcode operands)) ∧
    ∀ {memory other : Memory} {address : Nat} {instruction : Instruction},
      decode memory address = .instruction instruction →
      (∀ offset, offset < instruction.width →
        other.get? (address + offset) = memory.get? (address + offset)) →
      decode other address = .instruction instruction := by
  refine ⟨?_, ?_, ?_, ?_⟩
  · intro memory address
    exact ⟨decode_eq_endOfProgram_iff, fun _ => decode_eq_fault_iff, fun _ => decode_eq_ofCells_iff⟩
  · intro memory address instruction found
    obtain ⟨rfl, stands⟩ := decode_eq_instruction_iff.mp found
    exact stands.symm
  · intro before after operands opcode complete
    rw [Instruction.ofCells_of_length complete, decode_eq_instruction_iff]
    exact ⟨rfl, Instruction.standsIn_ofList before after rfl⟩
  · intro memory other address instruction found same
    obtain ⟨rfl, stands⟩ := decode_eq_instruction_iff.mp found
    exact decode_eq_instruction_iff.mpr ⟨rfl, stands.congr same⟩

end

/-- The last cell of memory is the last operand of an addition, which other cells precede and
follow in another memory. -/
theorem decoding_inverts_encoding_of_addition :
    (9 : Word) :: [32769, 4, 5] =
        ((Memory.ofList [21, 9, 32769, 4, 5]).toList.drop 1).take 4 ∧
      decode (.ofList ([21] ++ Opcode.add.code :: [32769, 4, 5] ++ [])) 1 =
        .instruction (.ofCells 1 .add [32769, 4, 5]) ∧
      decode (.ofList [500, 9, 32769, 4, 5, 0, 0]) 1 =
        .instruction ⟨1, .add, [32769, 4, 5], rfl⟩ := by
  obtain ⟨_, slices, finds, looks⟩ := decoding_inverts_encoding
  have found : decode (.ofList [21, 9, 32769, 4, 5]) 1 =
      .instruction ⟨1, .add, [32769, 4, 5], rfl⟩ := by decide
  exact ⟨slices found, finds [21] [] [32769, 4, 5] .add rfl, looks found (by decide)⟩

end RegisterMachine
