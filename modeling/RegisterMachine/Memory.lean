import RegisterMachine.Word

/-!
Contract: main memory as an array of words with a tail of zeros.

The array covers the addresses below its size. Reading past it gives zero;
writing past it fills the gap with zeros, so a sequence of writes is observed
as if memory had always been infinite.

Owns: `Memory`, reading, writing, slices, and the byte image.
Does not own: instructions (`Instruction`), which are read off memory.
-/

namespace RegisterMachine

/-- The cells of main memory in address order, up to the last one in use. -/
structure Memory where
  cells : Array Word
deriving DecidableEq, Repr, Inhabited

namespace Memory

def empty : Memory := ⟨#[]⟩

def ofList (words : List Word) : Memory := ⟨words.toArray⟩

def toList (memory : Memory) : List Word := memory.cells.toList

/-- The number of cells in use. -/
def size (memory : Memory) : Nat := memory.cells.size

def isEmpty (memory : Memory) : Bool := memory.size == 0

/-- The cell at an address below the size. -/
def get? (memory : Memory) (address : Nat) : Option Word := memory.cells[address]?

/-- The value that a program sees at an address. -/
def read (memory : Memory) (address : Nat) : Word := (memory.get? address).getD 0

/-- Stores a value, taking the cells up to the address into use. -/
def write (memory : Memory) (address value : Word) : Memory :=
  if inside : address.toNat < memory.cells.size then
    ⟨memory.cells.set address.toNat value inside⟩
  else
    ⟨(memory.cells ++ Array.replicate (address.toNat - memory.cells.size) 0).push value⟩

/-- The cells at `count` addresses from `start` on, if all of them are in use. -/
def slice? (memory : Memory) (start : Nat) : (count : Nat) → Option (List Word)
  | 0 => some []
  | count + 1 =>
      match memory.get? start with
      | none => none
      | some cell => (memory.slice? (start + 1) count).map (cell :: ·)

theorem length_of_slice? {memory : Memory} {start count : Nat} {words : List Word}
    (found : memory.slice? start count = some words) : words.length = count := by
  induction count generalizing start words with
  | zero =>
      simp only [slice?, Option.some.injEq] at found
      simp [← found]
  | succ count inductionHypothesis =>
      simp only [slice?] at found
      split at found
      · contradiction
      · obtain ⟨rest, restFound, rfl⟩ := Option.map_eq_some_iff.mp found
        simp [inductionHypothesis restFound]

theorem size_write (memory : Memory) (address value : Word) :
    (memory.write address value).size = max memory.size (address.toNat + 1) := by
  unfold write size
  split
  · next inside =>
      simp only [Array.size_set]
      omega
  · next outside =>
      simp only [Array.size_push, Array.size_append, Array.size_replicate]
      omega

/-- The gap that a write closes is filled with zeros. -/
theorem get?_write (memory : Memory) (address value : Word) (other : Nat) :
    (memory.write address value).get? other =
      if other = address.toNat then some value
      else if other < address.toNat then some (memory.read other)
      else memory.get? other := by
  unfold read get? write
  split
  · next inside =>
      rw [Array.getElem?_set]
      by_cases same : address.toNat = other
      · simp [same]
      · by_cases below : other < address.toNat
        · simp [same, Ne.symm same, below, Nat.lt_trans below inside]
        · simp [same, Ne.symm same, below]
  · next outside =>
      have sizeEq : memory.cells.size + (address.toNat - memory.cells.size) = address.toNat := by
        omega
      rw [Array.getElem?_push, Array.getElem?_append, Array.size_append, Array.size_replicate,
        sizeEq]
      by_cases same : other = address.toNat
      · simp [same]
      · by_cases inUse : other < memory.cells.size
        · have below : other < address.toNat := by omega
          simp [same, inUse, below]
        · have unused : memory.cells[other]? = none :=
            Array.getElem?_eq_none (Nat.le_of_not_lt inUse)
          simp only [same, inUse, if_false, Array.getElem?_replicate, unused, Option.getD_none]
          by_cases below : other < address.toNat
          · have inGap : other - memory.cells.size < address.toNat - memory.cells.size := by omega
            simp [below, inGap]
          · have pastGap : ¬ other - memory.cells.size < address.toNat - memory.cells.size := by
              omega
            simp [below, pastGap]

theorem read_write (memory : Memory) (address value : Word) (other : Nat) :
    (memory.write address value).read other =
      if other = address.toNat then value else memory.read other := by
  rw [read, get?_write]
  split
  · rfl
  · split <;> rfl

/-! ## The byte image -/

/-- Appends the words of an image to `cells`. An odd last byte is no word. -/
def pushWords (cells : Array Word) : Bytes → Array Word
  | low :: high :: rest => pushWords (cells.push (Word.ofBytes low high)) rest
  | _ => cells

/-- The memory that a program image describes. -/
def ofBytes (image : Bytes) : Memory := ⟨pushWords #[] image⟩

/-- The image of the memory. -/
def toBytes (memory : Memory) : Bytes :=
  memory.toList.flatMap fun word => [word.lowByte, word.highByte]

end Memory

end RegisterMachine
