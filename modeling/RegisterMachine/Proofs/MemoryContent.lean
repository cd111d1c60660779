import RegisterMachine.Memory
import RegisterMachine.Proofs.Decoding

/-!
Contract: memory is an array with a tail of zeros, and its byte image is faithful.

A gap may be created by one write and filled by another, in any order. What is
read after a sequence of writes does not tell: it is the last value written to
the address, or else what was there from the beginning. The image of a memory
has two bytes for each cell, so an odd byte at the end of an image is lost, and
nothing else.

Owns: sequences of writes, and both directions of the byte image.
Does not own: which writes a program makes (`Execute`).
-/

namespace RegisterMachine.Memory

/-- A value and the address that it is written to. -/
structure Write where
  address : Word
  value : Word
deriving DecidableEq, Repr

/-- The memory after writes in their order. -/
def writeAll (memory : Memory) (writes : List Write) : Memory :=
  writes.foldl (fun memory write => memory.write write.address write.value) memory

/-- The value of the last write to an address. -/
def lastWritten? (writes : List Write) (address : Nat) : Option Word :=
  (writes.reverse.find? fun write => write.address.toNat == address).map Write.value

/-- One more than the largest address that is written to, or zero if there is none. -/
def reach (writes : List Write) : Nat :=
  writes.foldr (fun write bound => max (write.address.toNat + 1) bound) 0

/-! ## Sequences of writes -/

theorem writeAll_cons (memory : Memory) (write : Write) (later : List Write) :
    memory.writeAll (write :: later) =
      (memory.write write.address write.value).writeAll later := rfl

theorem lastWritten?_cons (write : Write) (later : List Write) (address : Nat) :
    lastWritten? (write :: later) address =
      (lastWritten? later address).or
        (if address = write.address.toNat then some write.value else none) := by
  rw [lastWritten?, lastWritten?, List.reverse_cons, List.find?_append, Option.map_or]
  by_cases same : address = write.address.toNat
  · simp [same]
  · simp [same, Ne.symm same]

/-- A later write counts more than an earlier one, and any write more than what was there. -/
theorem read_writeAll (memory : Memory) (writes : List Write) (address : Nat) :
    (memory.writeAll writes).read address =
      (lastWritten? writes address).getD (memory.read address) := by
  induction writes generalizing memory with
  | nil => rfl
  | cons write later inductionHypothesis =>
      rw [writeAll_cons, inductionHypothesis, read_write, lastWritten?_cons]
      cases lastWritten? later address with
      | some value => rfl
      | none => by_cases same : address = write.address.toNat <;> simp [same]

theorem size_writeAll (memory : Memory) (writes : List Write) :
    (memory.writeAll writes).size = max memory.size (reach writes) := by
  induction writes generalizing memory with
  | nil => exact (Nat.max_zero memory.size).symm
  | cons write later inductionHypothesis =>
      rw [writeAll_cons, inductionHypothesis, size_write, Nat.max_assoc]
      rfl

theorem read_eq_cell (memory : Memory) (address : Nat) :
    memory.read address =
      if inUse : address < memory.cells.size then memory.cells[address] else 0 := by
  unfold read get?
  by_cases inUse : address < memory.cells.size
  · rw [dif_pos inUse, Array.getElem?_eq_getElem inUse, Option.getD_some]
  · rw [dif_neg inUse, Array.getElem?_eq_none (Nat.le_of_not_lt inUse), Option.getD_none]

theorem isSome_get?_iff (memory : Memory) (address : Nat) :
    (memory.get? address).isSome = true ↔ address < memory.size := by
  rw [← Option.ne_none_iff_isSome, ne_eq, get?_eq_none_iff, Nat.not_le]

/-! ## The byte image -/

/-- The bytes of a word in an image. -/
def imageOf (word : Word) : Bytes := [word.lowByte, word.highByte]

theorem pushWords_flatMap (cells : Array Word) (words : List Word) :
    pushWords cells (words.flatMap imageOf) = cells ++ words := by
  induction words generalizing cells with
  | nil => rfl
  | cons word rest inductionHypothesis =>
      show pushWords (cells.push (Word.ofBytes word.lowByte word.highByte))
        (rest.flatMap imageOf) = _
      rw [inductionHypothesis, Word.ofBytes_lowByte_highByte]
      rfl

theorem length_lt_two {image : Bytes}
    (short : ∀ low high rest, image = low :: high :: rest → False) : image.length < 2 := by
  match image with
  | [] | [_] => simp
  | low :: high :: rest => exact absurd rfl (short low high rest)

/-- Bytes are read in pairs, as long as there are two of them. -/
theorem flatMap_pushWords (cells : Array Word) (image : Bytes) :
    (pushWords cells image).toList.flatMap imageOf =
      cells.toList.flatMap imageOf ++ image.take (2 * (image.length / 2)) := by
  fun_induction pushWords cells image with
  | case1 cells low high rest inductionHypothesis =>
      have pairs : 2 * ((low :: high :: rest).length / 2) = 2 * (rest.length / 2) + 2 := by
        simp only [List.length_cons]
        omega
      have pair : imageOf (Word.ofBytes low high) = [low, high] := by
        rw [imageOf, Word.lowByte_ofBytes, Word.highByte_ofBytes]
      rw [inductionHypothesis, pairs, Array.toList_push, List.flatMap_append,
        List.flatMap_singleton, pair, List.append_assoc]
      rfl
  | case2 image cells short =>
      have below := length_lt_two short
      have noPair : 2 * (image.length / 2) = 0 := by omega
      rw [noPair, List.take_zero, List.append_nil]

theorem take_pairs (image : Bytes) :
    image.take (2 * (image.length / 2)) =
      if image.length % 2 = 1 then image.dropLast else image := by
  split
  · next odd =>
      have allButOne : 2 * (image.length / 2) = image.length - 1 := by omega
      rw [allButOne, List.dropLast_eq_take]
  · next even =>
      have all : 2 * (image.length / 2) = image.length := by omega
      rw [all, List.take_length]

theorem ofBytes_toBytes (memory : Memory) : ofBytes memory.toBytes = memory := by
  have pushed := pushWords_flatMap #[] memory.toList
  rw [ofBytes]
  exact congrArg Memory.mk (pushed.trans (by simp [toList]))

theorem toBytes_ofBytes (image : Bytes) :
    (ofBytes image).toBytes = if image.length % 2 = 1 then image.dropLast else image := by
  rw [← take_pairs]
  exact flatMap_pushWords #[] image

/-- The word of a pair of bytes, the low byte first. -/
def imageCell? (image : Bytes) (address : Nat) : Option Word :=
  match image[2 * address]?, image[2 * address + 1]? with
  | some low, some high => some (.ofNat (low.toNat + 256 * high.toNat))
  | _, _ => none

theorem getElem?_pushWords (cells : Array Word) (image : Bytes) (index : Nat) :
    (pushWords cells image)[index]? =
      if index < cells.size then cells[index]? else imageCell? image (index - cells.size) := by
  fun_induction pushWords cells image with
  | case1 cells low high rest inductionHypothesis =>
      rw [inductionHypothesis, Array.size_push, Array.getElem?_push]
      rcases Nat.lt_trichotomy index cells.size with before | rfl | after
      · simp [before, Nat.lt_succ_of_lt before, Nat.ne_of_lt before]
      · simp [imageCell?, Word.ofBytes]
      · -- The pair that is behind the first one is as far behind it in the rest.
        obtain ⟨more, rfl⟩ := Nat.exists_eq_add_of_lt after
        have further : cells.size + more + 1 - cells.size = more + 1 := by omega
        have inRest : cells.size + more + 1 - (cells.size + 1) = more := by omega
        rw [if_neg (by omega), if_neg (by omega), further, inRest]
        rfl
  | case2 image cells short =>
      split
      · rfl
      · next outside =>
          have below := length_lt_two short
          have noHigh : image[2 * (index - cells.size) + 1]? = none :=
            List.getElem?_eq_none (by omega)
          rw [Array.getElem?_eq_none (Nat.le_of_not_lt outside), imageCell?, noHigh]
          cases image[2 * (index - cells.size)]? <;> rfl

/-- An image gives each address its own pair of bytes. -/
theorem get?_ofBytes (image : Bytes) (address : Nat) :
    (ofBytes image).get? address = imageCell? image address :=
  getElem?_pushWords #[] image address

/-! ## Memory as a whole -/

/-- After any writes, memory holds at each address the last value written to it, else its first
cell there, else zero, and it has grown as far as the writes have reached. Its image describes
exactly this memory, and an image describes a memory that has the same image, apart from an odd
byte at its end. -/
theorem holds_last_writes_and_images (memory : Memory) (writes : List Write) (image : Bytes) :
    (∀ address, (memory.writeAll writes).read address =
      (lastWritten? writes address).getD
        (if inUse : address < memory.cells.size then memory.cells[address] else 0)) ∧
    (memory.writeAll writes).size = max memory.size (reach writes) ∧
    (∀ address, ((memory.writeAll writes).get? address).isSome = true ↔
      address < (memory.writeAll writes).size) ∧
    ofBytes memory.toBytes = memory ∧
    (ofBytes image).toBytes = if image.length % 2 = 1 then image.dropLast else image := by
  refine ⟨fun address => ?_, size_writeAll memory writes, isSome_get?_iff _, ofBytes_toBytes memory,
    toBytes_ofBytes image⟩
  rw [read_writeAll, read_eq_cell]

/-- The cells of a gap are zero unless they are written to, before or after it is created. -/
example :
    ((ofList [1, 2]).writeAll [⟨3, 7⟩, ⟨5, 99⟩, ⟨2, 8⟩, ⟨5, 9⟩]).toList = [1, 2, 8, 7, 0, 9] := by
  decide

end RegisterMachine.Memory
