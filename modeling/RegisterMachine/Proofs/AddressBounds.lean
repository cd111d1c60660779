import RegisterMachine.Proofs.Listing.Tiling
import RegisterMachine.Proofs.MemoryGrowth

/-!
Contract: addresses fit into 64 bits.

Addresses are computed in three places: for the operands of an instruction, for
the cell behind it, and for the cell behind a row of a listing. Each of these
sums begins at a cell of memory and ends at most three cells behind the last
one, so a machine that refuses every sum which 64 bits cannot hold refuses none
of them, as long as memory has less than 2^63 cells. The other way to come by an
address is to jump, and a jump of a program goes to a word.

Owns: `Checked`, `JumpsToWord`, `Engine.CountsWithin`.
Does not own: the size of memory (`Proofs.MemoryGrowth`).
-/

namespace RegisterMachine

/-! ## Sums that are checked -/

namespace Checked

/-- The sum of two numbers, if 64 bits can hold it. -/
def add? (left right : Nat) : Option Nat :=
  if left + right < 0x10000000000000000 then some (left + right) else none

theorem add?_of_lt {left right : Nat} (fits : left + right < 0x10000000000000000) :
    add? left right = some (left + right) := if_pos fits

theorem eq_of_add? {left right sum : Nat} (added : add? left right = some sum) :
    sum = left + right := by
  unfold add? at added
  split at added
  · exact (Option.some.inj added).symm
  · cases added

/-- The cells that stand `offset` cells and more behind the opcode at an address, if all of them
are in memory, and if 64 bits can hold the addresses at which they are looked for. -/
def operands? (memory : Memory) (address : Nat) : (offset count : Nat) → Option (Option (List Word))
  | _, 0 => some (some [])
  | offset, count + 1 =>
      match (add? address 1).bind fun first => add? first offset with
      | none => none
      | some place =>
          match memory.get? place with
          | none => some none
          | some cell => (operands? memory address (offset + 1) count).map (·.map (cell :: ·))

/-- What memory holds at an address, if 64 bits can hold the addresses of the operands. -/
def decode? (memory : Memory) (address : Nat) : Option Decoded :=
  match memory.get? address with
  | none => some .endOfProgram
  | some cell =>
      match Opcode.ofCode? cell with
      | none => some (.fault (.unknownOpcode cell address))
      | some opcode =>
          (operands? memory address 0 opcode.arity).map fun found =>
            match found with
            | none => .fault (.truncatedInstruction opcode address)
            | some operands => .instruction (.ofCells address opcode operands)

/-- The address of the cell after an instruction, if 64 bits can hold it. -/
def next? (instruction : Instruction) : Option Nat := add? instruction.address instruction.width

/-- The row that begins at an address, if there is one. -/
def rowAt? (memory : Memory) (address : Nat) : Option (Option Listing.Row) :=
  (decode? memory address).map fun decoded =>
    match decoded with
    | .instruction shown => some (.instruction shown)
    | .fault _ => some (.data address (memory.read address))
    | .endOfProgram => none

/-- Appends the rows from `address` on that begin before `stop`, if 64 bits can hold the addresses
between them. -/
def pushRows? (memory : Memory) (stop : Nat) (rows : Array Listing.Row) (address : Nat) :
    Option (Array Listing.Row) :=
  if address < stop then
    match rowAt? memory address with
    | none => none
    | some none => some rows
    | some (some row) =>
        match _added : add? address row.width with
        | none => none
        | some next => pushRows? memory stop (rows.push row) next
  else
    some rows
termination_by stop - address
decreasing_by
  have widthPositive := row.width_pos
  have isSum := eq_of_add? _added
  omega

variable {memory : Memory} {address : Nat}

/-- The operands behind an opcode in memory are looked for at addresses of 64 bits. -/
theorem operands?_eq (small : memory.size < 0x8000000000000000) (inside : address < memory.size)
    {offset count : Nat} (few : offset + count ≤ 3) :
    operands? memory address offset count =
      some (memory.slice? (address + 1 + offset) count) := by
  induction count generalizing offset with
  | zero => rfl
  | succ count inductionHypothesis =>
      have first : add? address 1 = some (address + 1) := add?_of_lt (by omega)
      have place : add? (address + 1) offset = some (address + 1 + offset) := add?_of_lt (by omega)
      have later := inductionHypothesis (show offset + 1 + count ≤ 3 by omega)
      rw [← Nat.add_assoc] at later
      rw [operands?, first, Option.bind_some, place, Memory.slice?]
      simp only
      cases memory.get? (address + 1 + offset) with
      | none => rfl
      | some cell =>
          simp only
          rw [later, Option.map_some]

/-- Decoding refuses no address, wherever it begins. -/
theorem decode?_eq (small : memory.size < 0x8000000000000000) (address : Nat) :
    decode? memory address = some (decode memory address) := by
  unfold decode? decode
  cases holds : memory.get? address with
  | none => rfl
  | some cell =>
      simp only
      cases named : Opcode.ofCode? cell with
      | none => rfl
      | some opcode =>
          simp only
          have inside := Memory.lt_size_of_get? holds
          have few : 0 + opcode.arity ≤ 3 := by
            cases opcode <;> decide
          have found := operands?_eq small inside few
          simp only [Nat.add_zero] at found
          rw [found, Option.map_some]
          congr 1
          split
          · next missing =>
              split
              · rfl
              · next operands sliced => rw [missing] at sliced; cases sliced
          · next operands sliced =>
              split
              · next missing => rw [missing] at sliced; cases sliced
              · next others slicedAlike =>
                  rw [sliced] at slicedAlike
                  cases slicedAlike
                  rw [Instruction.ofCells_of_length (Memory.length_of_slice? sliced)]

theorem next?_eq (small : memory.size < 0x8000000000000000) {instruction : Instruction}
    (decoded : decode memory address = .instruction instruction) :
    next? instruction = some instruction.next := by
  have ends := next_le_of_decode decoded
  exact add?_of_lt (show instruction.next < 0x10000000000000000 by omega)

theorem rowAt?_eq (small : memory.size < 0x8000000000000000) (address : Nat) :
    rowAt? memory address = some (Listing.rowAt? memory address) := by
  rw [rowAt?, decode?_eq small, Option.map_some]
  rfl

/-- The walk over memory goes from one address of 64 bits to the next. -/
theorem pushRows?_eq (small : memory.size < 0x8000000000000000) (stop : Nat)
    (rows : Array Listing.Row) (address : Nat) :
    pushRows? memory stop rows address = some (Listing.pushRows memory stop rows address) := by
  fun_induction Listing.pushRows memory stop rows address with
  | case1 rows address before missing =>
      rw [pushRows?, if_pos before, rowAt?_eq small, missing]
  | case2 rows address before row found inductionHypothesis =>
      have shows := Listing.shows_of_rowAt? found
      have sum : add? address row.width = some (address + row.width) := by
        apply add?_of_lt
        have ends : address + row.width ≤ memory.size := shows.stands ▸ shows.inMemory
        omega
      rw [pushRows?, if_pos before, rowAt?_eq small, found]
      simp only
      split
      · next refused => rw [sum] at refused; cases refused
      · next next added =>
          rw [sum] at added
          cases added
          exact inductionHypothesis
  | case3 rows address reached => rw [pushRows?, if_neg reached]

end Checked

/-! ## The program counter -/

/-- If a jump results, it goes to an address that a word can name. -/
def JumpsToWord (result : Except Fault Effect) : Prop :=
  ∀ address, result = .ok (.jump address) → address < addressSpace

theorem jumpsToWord (target : Word) : JumpsToWord (.ok (.jump target.toNat)) := by
  intro address jumps
  cases jumps
  exact target.toNat_lt

section
variable {H : Type} (instruction : Instruction) (machine : Machine) (host : H)

theorem jumpsToWord_assign (value : Word) :
    JumpsToWord (assign instruction machine host value).result := by
  unfold assign
  split <;> exact nofun

theorem jumpsToWord_assignRemainder :
    JumpsToWord (assignRemainder instruction machine host).result := by
  unfold assignRemainder
  split
  · exact nofun
  · split <;> exact nofun

theorem jumpsToWord_popTo : JumpsToWord (popTo instruction machine host).result := by
  unfold popTo
  split
  · exact nofun
  · split <;> exact nofun

theorem jumpsToWord_returnToTop :
    JumpsToWord (returnToTop instruction machine host).result := by
  unfold returnToTop
  split
  · exact nofun
  · exact jumpsToWord _

theorem jumpsToWord_callTarget : JumpsToWord (callTarget instruction machine host).result := by
  unfold callTarget
  split
  · exact jumpsToWord _
  · exact nofun

theorem jumpsToWord_receive [Host H] : JumpsToWord (receive instruction machine host).result := by
  unfold receive
  split
  · exact nofun
  · split <;> exact nofun

/-- Programs jump to words. -/
theorem jumpsToWord_execute [Host H] : JumpsToWord (execute instruction machine host).result := by
  unfold execute
  cases instruction.opcode with
  | jump => exact jumpsToWord _
  | jumpIfTrue | jumpIfFalse =>
      simp only
      split
      · exact jumpsToWord _
      · exact nofun
  | call => exact jumpsToWord_callTarget instruction machine host
  | «return» => exact jumpsToWord_returnToTop instruction machine host
  | pop => exact jumpsToWord_popTo instruction machine host
  | modulo => exact jumpsToWord_assignRemainder instruction machine host
  | input => exact jumpsToWord_receive instruction machine host
  | set | equal | greater | add | multiply | bitAnd | bitOr | bitNot | readMemory =>
      exact jumpsToWord_assign instruction machine host _
  | halt | noop | push | writeMemory | output => exact nofun

end

namespace Engine

/-- The program counter is set, to a word or to the address behind an instruction that ends where
memory of the given size ends or before. -/
def CountsWithin (size : Nat) (engine : Engine) : Prop :=
  ∃ pc, engine.machine.pc = some pc ∧ pc ≤ max 65535 size

theorem countsWithin_conclude {H : Type} {engine : Engine} {instruction : Instruction}
    {execution : Execution H} {size : Nat} (ends : instruction.next ≤ size)
    (jumps : JumpsToWord execution.result)
    (completed : (engine.conclude instruction execution).outcome = .completed) :
    (engine.conclude instruction execution).engine.CountsWithin size := by
  unfold conclude at completed ⊢
  split at completed
  · exact ⟨instruction.next, rfl, by omega⟩
  · next address goesThere =>
      have inSpace : address < 65536 := jumps address goesThere
      exact ⟨address, rfl, by omega⟩
  · cases completed
  · cases completed
  · cases completed

/-- Wherever the program counter was, a completed cycle leaves it at a word, or behind an
instruction in memory. -/
theorem countsWithin_cycle {H : Type} [Host H] (engine : Engine) (host : H) (bypass : Bool)
    (completed : (engine.cycle host bypass).outcome = .completed) :
    (engine.cycle host bypass).engine.CountsWithin engine.machine.memory.size := by
  cases engine.cycleStart with
  | halted _ cycles | stops _ _ _ cycles =>
      rw [cycles] at completed
      cases completed
  | @fetches instruction _ fetched cycles =>
      rw [cycles] at completed ⊢
      unfold handle at completed ⊢
      simp only at completed ⊢
      split at completed
      · cases completed
      · next passes =>
          rw [if_neg passes]
          rw [perform_eq_conclude] at completed ⊢
          exact countsWithin_conclude (next_le_of_decode fetched)
            (jumpsToWord_execute instruction _ _) completed

end Engine

/-- Memory grows within the address space; no sum of addresses passes 64 bits; and the program
counter comes back within memory or the address space with every completed cycle. -/
theorem memory_and_addresses_stay_bounded :
    (∀ {first last : Engine}, first.Evolves last →
      first.machine.memory.size ≤ last.machine.memory.size ∧
        last.machine.memory.size ≤ max first.machine.memory.size 65536) ∧
    (∀ {memory : Memory} {address : Nat} {instruction : Instruction},
      decode memory address = .instruction instruction →
        address + instruction.width ≤ memory.size ∧
          (memory.size < 0x8000000000000000 → Checked.next? instruction = some instruction.next)) ∧
    (∀ {memory : Memory}, memory.size < 0x8000000000000000 → ∀ address,
      Checked.decode? memory address = some (decode memory address) ∧
        ∀ stop, Checked.pushRows? memory stop #[] address =
          some (Listing.pushRows memory stop #[] address)) ∧
    ∀ {H : Type} [Host H] (engine : Engine) (host : H) (bypass : Bool),
      (engine.cycle host bypass).outcome = .completed →
        (engine.cycle host bypass).engine.CountsWithin engine.machine.memory.size := by
  refine ⟨?_, ?_, ?_, Engine.countsWithin_cycle⟩
  · intro first last evolves
    exact ⟨evolves.grows.noShorter, evolves.grows.bounded⟩
  · intro memory address instruction decoded
    have ends := next_le_of_decode decoded
    rw [Instruction.next, Engine.address_of_decode decoded] at ends
    exact ⟨ends, fun small => Checked.next?_eq small decoded⟩
  · intro memory small address
    exact ⟨Checked.decode?_eq small address,
      fun stop => Checked.pushRows?_eq small stop #[] address⟩

/-- Writes a `noop` far behind itself, and jumps to it. -/
def writesAhead : Engine := .fresh (.ofList [16, 9, 21, 6, 9]) .standard

/-- The first of its instructions is executed. -/
def wroteAhead : Engine := (writesAhead.operate (BufferedHost.start true) (.step 1)).engine

/-- Memory grows to the cell that is written, and the program counter comes to stand there. -/
theorem memory_and_addresses_stay_bounded_of_writesAhead :
    wroteAhead.machine.memory.size = 10 ∧ 10 ≤ max writesAhead.machine.memory.size 65536 ∧
    (∃ instruction, decode wroteAhead.machine.memory 9 = .instruction instruction ∧
      9 + instruction.width ≤ 10 ∧ Checked.next? instruction = some 10) ∧
    (∀ stop, Checked.pushRows? wroteAhead.machine.memory stop #[] 9 =
      some (Listing.pushRows wroteAhead.machine.memory stop #[] 9)) ∧
    (wroteAhead.cycle (BufferedHost.start true) false).engine.machine.pc = some 9 ∧
      (wroteAhead.cycle (BufferedHost.start true) false).engine.CountsWithin 10 := by
  obtain ⟨grows, fits, walks, counts⟩ := memory_and_addresses_stay_bounded
  have ten : wroteAhead.machine.memory.size = 10 := by decide
  have small : wroteAhead.machine.memory.size < 0x8000000000000000 := by omega
  have decoded : decode wroteAhead.machine.memory 9 = .instruction ⟨9, .noop, [], rfl⟩ := by decide
  refine ⟨ten, ?_, ⟨_, decoded, ?_⟩, ?_, by decide, ?_⟩
  · exact ten ▸ (grows (.operated (BufferedHost.start true) (.step 1) rfl .refl)).2
  · exact ⟨ten ▸ (fits decoded).1, (fits decoded).2 small⟩
  · exact (walks small 9).2
  · exact ten ▸ counts wroteAhead (BufferedHost.start true) false (by decide)

end RegisterMachine
