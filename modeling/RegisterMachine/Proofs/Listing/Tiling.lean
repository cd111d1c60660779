import Mathlib.Data.List.Chain
import RegisterMachine.Listing
import RegisterMachine.Proofs.Decoding

/-!
Contract: a listing covers memory without gap or overlap.

The walk over memory goes from the end of one row to the beginning of the next,
so its rows lie side by side, and their cells in succession are those of memory.
Where the walk ends depends on nothing but where it began and which row is the
last to begin in the range; so a listing can be made in two parts, if the second
one begins where the rows of the first one end.

Owns: `Tiles`, what its rows show, and listings in parts.
Does not own: the text of a row (`Proofs.Listing.Legibility`).
-/

namespace RegisterMachine.Listing

/-- No complete instruction begins at the address: its cell is no opcode number, or memory ends
before the operands do. -/
def Incomplete (memory : Memory) (address : Nat) : Prop :=
  (∀ opcode : Opcode, opcode.code ≠ memory.read address) ∨
    ∃ opcode : Opcode, opcode.code = memory.read address ∧
      memory.size < address + (1 + opcode.arity)

namespace Row

/-- The address of the cell after the row. -/
def next (row : Row) : Nat := row.address + row.width

theorem width_le (row : Row) : row.width ≤ 4 := by
  cases row with
  | instruction shown =>
      show 1 + shown.opcode.arity ≤ 4
      cases shown.opcode <;> decide
  | data _ _ => exact Nat.le_add_left 1 3

/-- The row shows what memory holds at the address. -/
structure Shows (memory : Memory) (address : Nat) (row : Row) : Prop where
  stands : row.address = address
  inMemory : row.next ≤ memory.size
  cells : row.cells = (memory.toList.drop address).take row.width
  incomplete : row.isInstruction = false ↔ Incomplete memory address

end Row

variable {memory : Memory} {start stop address finish : Nat} {row : Row} {shown : List Row}

/-! ## One row -/

theorem read_of_get? {cell : Word} (holds : memory.get? address = some cell) :
    memory.read address = cell := by
  rw [Memory.read, holds, Option.getD_some]

theorem incomplete_of_unnamed {cell : Word} (holds : memory.get? address = some cell)
    (unnamed : ∀ opcode : Opcode, opcode.code ≠ cell) : Incomplete memory address := by
  rw [← read_of_get? holds] at unnamed
  exact .inl unnamed

theorem incomplete_iff_of_code {opcode : Opcode}
    (holds : memory.get? address = some opcode.code) :
    Incomplete memory address ↔ memory.size < address + (1 + opcode.arity) := by
  have isCode := read_of_get? holds
  constructor
  · rintro (unnamed | ⟨other, same, cut⟩)
    · exact absurd isCode.symm (unnamed opcode)
    · have isOther : some other = some opcode := by
        rw [← Opcode.ofCode?_code other, same, isCode, Opcode.ofCode?_code]
      rwa [Option.some.inj isOther] at cut
  · intro cut
    exact .inr ⟨opcode, isCode.symm, cut⟩

theorem shows_data {cell : Word} (holds : memory.get? address = some cell)
    (incomplete : Incomplete memory address) :
    (Row.data address (memory.read address)).Shows memory address where
  stands := rfl
  inMemory := Memory.lt_size_of_get? holds
  cells := by
    rw [Memory.drop_of_get? holds, read_of_get? holds]
    rfl
  incomplete := ⟨fun _ => incomplete, fun _ => rfl⟩

/-- There is a row at every address of memory, and nowhere else. -/
theorem rowAt?_eq_none_iff : rowAt? memory address = none ↔ memory.size ≤ address := by
  have holding := decodedAt memory address
  unfold rowAt?
  generalize decode memory address = decoded at holding
  cases holding with
  | past past => exact ⟨fun _ => past, fun _ => rfl⟩
  | unnamed holds _ | truncated holds _ | complete _ holds _ _ =>
      have inside := Memory.lt_size_of_get? holds
      exact ⟨nofun, fun past => absurd inside (Nat.not_lt.mpr past)⟩

theorem shows_of_rowAt? (found : rowAt? memory address = some row) :
    row.Shows memory address := by
  have holding := decodedAt memory address
  unfold rowAt? at found
  generalize decode memory address = decoded at holding found
  cases holding with
  | past _ => cases found
  | unnamed holds unnamed =>
      cases found
      exact shows_data holds (incomplete_of_unnamed holds unnamed)
  | truncated holds cut =>
      cases found
      exact shows_data holds ((incomplete_iff_of_code holds).mpr cut)
  | complete stands holds ends cells =>
      cases found
      refine ⟨stands, ends, cells.symm, nofun, fun incomplete => ?_⟩
      have cut := (incomplete_iff_of_code holds).mp incomplete
      rw [← stands] at cut
      exact absurd cut (Nat.not_lt.mpr ends)

/-! ## Rows side by side -/

/-- The rows go from the first address to the last one, and stop being shown there. -/
inductive Tiles (memory : Memory) (stop : Nat) : Nat → List Row → Nat → Prop where
  | done {address : Nat} (reached : min stop memory.size ≤ address) :
      Tiles memory stop address [] address
  | row {address finish : Nat} {row : Row} {later : List Row}
      (inside : address < min stop memory.size) (found : rowAt? memory address = some row)
      (goesOn : Tiles memory stop (address + row.width) later finish) :
      Tiles memory stop address (row :: later) finish

/-- The walk over memory appends rows side by side. -/
theorem exists_tiles_pushRows (memory : Memory) (stop : Nat) (rows : Array Row) (address : Nat) :
    ∃ shown finish, (pushRows memory stop rows address).toList = rows.toList ++ shown ∧
      Tiles memory stop address shown finish := by
  fun_induction pushRows memory stop rows address with
  | case1 rows address _ missing =>
      have past := rowAt?_eq_none_iff.mp missing
      exact ⟨[], address, (List.append_nil _).symm, .done (by omega)⟩
  | case2 rows address before row found inductionHypothesis =>
      obtain ⟨later, finish, appended, goesOn⟩ := inductionHypothesis
      have inMemory : address < memory.size := by
        apply Nat.lt_of_not_le
        intro past
        rw [rowAt?_eq_none_iff.mpr past] at found
        contradiction
      refine ⟨row :: later, finish, ?_, .row (by omega) found goesOn⟩
      rw [appended, Array.toList_push, List.append_assoc]
      rfl
  | case3 rows address reached => exact ⟨[], address, (List.append_nil _).symm, .done (by omega)⟩

theorem exists_tiles (memory : Memory) (start stop : Nat) :
    ∃ finish, Tiles memory stop start (rows memory start stop true) finish := by
  obtain ⟨shown, finish, appended, tiles⟩ := exists_tiles_pushRows memory stop #[] start
  have areShown : rows memory start stop true = shown := by
    simp only [rows, appended, List.nil_append, Bool.true_or, List.filter_true]
  exact ⟨finish, areShown ▸ tiles⟩

theorem rows_without_data (memory : Memory) (start stop : Nat) :
    rows memory start stop false = (rows memory start stop true).filter Row.isInstruction := by
  simp only [rows, Bool.true_or, List.filter_true, Bool.false_or]

namespace Tiles

/-- Where the rows begin and stop being shown, there is one way to go. -/
theorem unique {other : List Row} {otherFinish : Nat}
    (tiles : Tiles memory stop address shown finish)
    (others : Tiles memory stop address other otherFinish) :
    shown = other ∧ finish = otherFinish := by
  induction tiles generalizing other otherFinish with
  | done reached =>
      cases others with
      | done _ => exact ⟨rfl, rfl⟩
      | row inside _ _ => omega
  | row inside found _ inductionHypothesis =>
      cases others with
      | done reached => omega
      | row _ otherFound goesOn =>
          cases found.symm.trans otherFound
          obtain ⟨rfl, rfl⟩ := inductionHypothesis goesOn
          exact ⟨rfl, rfl⟩

/-- Rows that stop being shown earlier can be continued. -/
theorem append {early : Nat} {first : List Row} {middle : Nat} (earlier : early ≤ stop)
    (tiles : Tiles memory early address first middle)
    (others : Tiles memory stop middle shown finish) :
    Tiles memory stop address (first ++ shown) finish := by
  induction tiles with
  | done _ => exact others
  | row inside found _ inductionHypothesis =>
      exact .row (by omega) found (inductionHypothesis others)

theorem shows (tiles : Tiles memory stop address shown finish) :
    ∀ row ∈ shown, row.Shows memory row.address ∧ row.address < min stop memory.size := by
  induction tiles with
  | done _ => nofun
  | row inside found _ inductionHypothesis =>
      have shows := shows_of_rowAt? found
      refine List.forall_mem_cons.mpr ⟨?_, inductionHypothesis⟩
      rw [shows.stands]
      exact ⟨shows, inside⟩

theorem head (tiles : Tiles memory stop address shown finish) :
    ∀ row ∈ shown.head?, row.address = address := by
  cases tiles with
  | done _ => nofun
  | row _ found _ =>
      rintro row isHead
      cases isHead
      exact (shows_of_rowAt? found).stands

theorem adjacent (tiles : Tiles memory stop address shown finish) :
    shown.IsChain fun row later => later.address = row.next := by
  induction tiles with
  | done _ => exact .nil
  | row _ found goesOn inductionHypothesis =>
      refine List.isChain_cons.mpr ⟨fun later isHead => ?_, inductionHypothesis⟩
      rw [goesOn.head later isHead, Row.next, (shows_of_rowAt? found).stands]

theorem eq_nil_iff (tiles : Tiles memory stop address shown finish) :
    shown = [] ↔ min stop memory.size ≤ address := by
  cases tiles with
  | done reached => exact ⟨fun _ => reached, fun _ => rfl⟩
  | row inside _ _ => exact ⟨nofun, fun reached => absurd inside (Nat.not_lt.mpr reached)⟩

end Tiles

/-- The address of the cell after the last row, or where the rows would begin if there are none. -/
def endOf (start : Nat) (shown : List Row) : Nat := (shown.getLast?.map Row.next).getD start

namespace Tiles

theorem endOf_eq (tiles : Tiles memory stop address shown finish) :
    endOf address shown = finish := by
  induction tiles with
  | done _ => rfl
  | @row address finish row later _ found goesOn inductionHypothesis =>
      have isNext : row.next = address + row.width := by
        rw [Row.next, (shows_of_rowAt? found).stands]
      cases later with
      | nil =>
          cases goesOn
          exact isNext
      | cons second others =>
          rw [← inductionHypothesis]
          simp only [endOf, List.getLast?_cons_cons]
          rw [List.getLast?_eq_getLast_of_ne_nil (List.cons_ne_nil second others)]
          rfl

theorem reaches (tiles : Tiles memory stop address shown finish) :
    min stop memory.size ≤ finish ∧ address ≤ finish := by
  induction tiles with
  | done reached => exact ⟨reached, Nat.le_refl _⟩
  | row _ _ _ inductionHypothesis => exact ⟨inductionHypothesis.1, by omega⟩

/-- The cells of the rows in succession are a part of memory. -/
theorem cells (tiles : Tiles memory stop address shown finish) :
    shown.flatMap Row.cells = (memory.toList.drop address).take (finish - address) := by
  induction tiles with
  | done _ => rw [Nat.sub_self, List.take_zero, List.flatMap_nil]
  | @row address finish row later _ found goesOn inductionHypothesis =>
      have further := goesOn.reaches.2
      have split : finish - address = row.width + (finish - (address + row.width)) := by omega
      rw [List.flatMap_cons, inductionHypothesis, (shows_of_rowAt? found).cells, split,
        List.take_add, List.drop_drop]

end Tiles

/-! ## Listings -/

/-- The rows cover a range of memory, as far as memory goes. -/
structure Covers (memory : Memory) (start stop : Nat) (shown : List Row) : Prop where
  first : ∀ row ∈ shown.head?, row.address = start
  adjacent : shown.IsChain fun row later => later.address = row.next
  begins : ∀ row ∈ shown, row.address < min stop memory.size
  inMemory : ∀ row ∈ shown, row.next ≤ memory.size
  last : ∀ row ∈ shown.getLast?, min stop memory.size ≤ row.next ∧ row.next ≤ stop + 3
  empty : shown = [] ↔ min stop memory.size ≤ start
  cells : shown.flatMap Row.cells =
    (memory.toList.drop start).take (endOf start shown - start)
  incomplete : ∀ row ∈ shown, row.isInstruction = false ↔ Incomplete memory row.address

theorem Tiles.covers (tiles : Tiles memory stop start shown finish) :
    Covers memory start stop shown where
  first := tiles.head
  adjacent := tiles.adjacent
  begins row member := (tiles.shows row member).2
  inMemory row member := (tiles.shows row member).1.inMemory
  last row isLast := by
    have before := (tiles.shows row (List.mem_of_getLast? isLast)).2
    have isEnd : endOf start shown = row.next := by rw [endOf, isLast]; rfl
    have bound := row.width_le
    refine ⟨?_, ?_⟩
    · rw [← isEnd, tiles.endOf_eq]
      exact tiles.reaches.1
    · rw [Row.next]
      omega
  empty := tiles.eq_nil_iff
  cells := by rw [tiles.endOf_eq, tiles.cells]
  incomplete row member := (tiles.shows row member).1.incomplete

/-- A listing can be made in two parts. -/
theorem rows_append (memory : Memory) (start : Nat) {middle stop : Nat} (earlier : middle ≤ stop)
    (includeData : Bool) :
    rows memory start stop includeData =
      rows memory start middle includeData ++
        rows memory (endOf start (rows memory start middle true)) stop includeData := by
  obtain ⟨finish, tiles⟩ := exists_tiles memory start middle
  obtain ⟨_, others⟩ := exists_tiles memory finish stop
  obtain ⟨_, whole⟩ := exists_tiles memory start stop
  rw [tiles.endOf_eq]
  have inParts := (whole.unique (tiles.append earlier others)).1
  cases includeData with
  | true => exact inParts
  | false =>
      rw [rows_without_data, inParts, List.filter_append, ← rows_without_data,
        ← rows_without_data]

/-- The rows of a listing cover its range side by side, each with what memory holds there; without
data they are the same rows, less those of data; and a listing up to some address goes on where its
last row ends. -/
theorem rows_cover_range (memory : Memory) (start stop : Nat) :
    Covers memory start stop (rows memory start stop true) ∧
      rows memory start stop false = (rows memory start stop true).filter Row.isInstruction ∧
      ∀ middle includeData, middle ≤ stop →
        rows memory start stop includeData =
          rows memory start middle includeData ++
            rows memory (endOf start (rows memory start middle true)) stop includeData := by
  obtain ⟨finish, tiles⟩ := exists_tiles memory start stop
  exact ⟨tiles.covers, rows_without_data memory start stop,
    fun middle includeData earlier => rows_append memory start earlier includeData⟩

/-- Prints a letter, and ends in the middle of an addition. -/
def cutAddition : Memory := .ofList [19, 65, 9, 32768]

/-- A range that ends inside an instruction is continued behind it. -/
theorem rows_cover_range_of_cutAddition :
    1 ≤ 4 ∧ rows cutAddition 0 4 true = rows cutAddition 0 1 true ++ rows cutAddition 2 4 true ∧
      (rows cutAddition 0 4 true).map Row.isInstruction = [true, false, false] := by
  have inParts := (rows_cover_range cutAddition 0 4).2.2 1 true (by decide)
  have ends : endOf 0 (rows cutAddition 0 1 true) = 2 := by decide +kernel
  rw [ends] at inParts
  exact ⟨by decide, inParts, by decide +kernel⟩

end RegisterMachine.Listing
