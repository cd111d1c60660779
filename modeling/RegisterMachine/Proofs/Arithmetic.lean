import Mathlib.Logic.Basic
import RegisterMachine.Host.Buffered
import RegisterMachine.Proofs.OpcodeTable

/-!
Contract: arithmetic is exact for all words.

Words have sixteen bits and values fifteen, but registers hold any word, so the
sources of an instruction can be anything. A sum or product is the remainder of
the exact one. It could as well be taken of 32-bit numbers: these hold the exact
sum and product of any two words, and the remainder loses nothing when it is cut
to sixteen bits.

Owns: `Opcode.Computes`, the numbers that arithmetic opcodes store, and their
laws.
Does not own: which instructions fault (`Proofs.Faults`).
-/

namespace RegisterMachine

/-! ## Words as remainders -/

namespace Word

/-- The word is the remainder of a 32-bit number that holds an exact one. -/
structure Narrows (word : Word) (wide : UInt32) (exact : Nat) : Prop where
  below : exact < UInt32.size
  holds : wide.toNat = exact
  cut : (wide % 32768).toUInt16 = word
  lossless : word.toUInt32 = wide % 32768

variable {word : Word}

theorem eq_reduced_iff (number : Nat) :
    word = UInt16.ofNat (number % 32768) ↔ word.toNat = number % 32768 := by
  have fits : number % 32768 < UInt16.size := by
    have below := Nat.mod_lt number (show 0 < 32768 by decide)
    exact Nat.lt_trans below (by decide)
  rw [← UInt16.toNat_inj, UInt16.toNat_ofNat_of_lt' fits]

theorem narrows_of_holds {wide : UInt32} {exact : Nat} (holds : wide.toNat = exact)
    (number : word.toNat = exact % 32768) : word.Narrows wide exact where
  below := by
    rw [← holds]
    exact wide.toNat_lt
  holds := holds
  cut := by
    rw [← UInt16.toNat_inj, UInt32.toNat_toUInt16, UInt32.toNat_mod, holds, number]
    exact Nat.mod_eq_of_lt (Nat.lt_trans (Nat.mod_lt exact (by decide)) (by decide))
  lossless := by
    rw [← UInt32.toNat_inj, UInt16.toNat_toUInt32, UInt32.toNat_mod, holds, number]
    rfl

theorem toNat_wideSum (left right : Word) :
    (left.toUInt32 + right.toUInt32).toNat = left.toNat + right.toNat := by
  have leftBound := left.toNat_lt
  have rightBound := right.toNat_lt
  rw [UInt32.toNat_add, UInt16.toNat_toUInt32, UInt16.toNat_toUInt32]
  exact Nat.mod_eq_of_lt (by omega)

theorem toNat_wideProduct (left right : Word) :
    (left.toUInt32 * right.toUInt32).toNat = left.toNat * right.toNat := by
  have bound : left.toNat * right.toNat < 2 ^ 16 * 2 ^ 16 :=
    Nat.mul_lt_mul'' left.toNat_lt right.toNat_lt
  rw [UInt32.toNat_mul, UInt16.toNat_toUInt32, UInt16.toNat_toUInt32]
  exact Nat.mod_eq_of_lt bound

end Word

/-! ## What an opcode computes -/

namespace Instruction

/-- The values of the operands after the first: the contents of the registers that they name, or
else the operands themselves. -/
def sources (instruction : Instruction) (machine : Machine) : List Word :=
  instruction.operands.tail.map machine.view.value

/-- The register that the first operand names. -/
def destination? (instruction : Instruction) : Option Register :=
  instruction.operands.head?.bind View.named?

theorem source_succ (instruction : Instruction) (machine : Machine) (index : Nat) :
    instruction.source machine (index + 1) =
      ((instruction.sources machine)[index]?).getD 0 := by
  rw [source, operand, sources, List.getElem?_map, List.getElem?_tail]
  cases instruction.operands[index + 1]? with
  | none => rfl
  | some cell => exact (View.value_view machine cell).symm

theorem register?_of_destination? {instruction : Instruction} {register : Register}
    (names : instruction.destination? = some register) :
    Operand.register? (instruction.operand 0) = some register := by
  obtain ⟨first, isFirst, named⟩ := Option.bind_eq_some_iff.mp names
  rw [List.head?_eq_getElem?] at isFirst
  rw [operand, isFirst, Option.getD_some, ← View.named?_eq, named]

end Instruction

namespace Opcode

/-- Some instruction with this opcode has sources of these values. -/
def Takes (opcode : Opcode) (sources : List Word) : Prop :=
  ∃ (instruction : Instruction) (machine : Machine) (register : Register),
    instruction.opcode = opcode ∧ instruction.sources machine = sources ∧
    instruction.destination? = some register

/-- Instructions with sources of these values store the word in the register that their first
operand names, whichever that is, and do nothing else. -/
structure Computes (opcode : Opcode) (sources : List Word) (word : Word) : Prop where
  takes : opcode.Takes sources
  stores : ∀ {H : Type} [Host H] (instruction : Instruction) (machine : Machine) (host : H)
    (register : Register),
    instruction.opcode = opcode → instruction.sources machine = sources →
    instruction.destination? = some register →
    execute instruction machine host = ⟨.ok .next, machine.setRegister register word, host⟩

/-- The word that an arithmetic opcode makes of its sources. The divisor of a remainder must not be
zero, and the complement has one source only. -/
def formula? : Opcode → Option (Word → Word → Word)
  | .equal => some fun left right => if left = right then 1 else 0
  | .greater => some fun left right => if left > right then 1 else 0
  | .add => some fun left right => .ofNat ((left.toNat + right.toNat) % 32768)
  | .multiply => some fun left right => .ofNat ((left.toNat * right.toNat) % 32768)
  | .modulo => some fun left right => left % right
  | .bitAnd => some fun left right => left &&& right
  | .bitOr => some fun left right => left ||| right
  | .bitNot => some fun source _ => ~~~ source &&& 0x7fff
  | _ => none

variable {opcode : Opcode} {formula : Word → Word → Word} {sources : List Word}
  {left right word other : Word}

theorem assignRemainder_of_ne {H : Type} {instruction : Instruction} {machine : Machine} {host : H}
    (nonzero : instruction.source machine 2 ≠ 0) :
    assignRemainder instruction machine host =
      assign instruction machine host
        (instruction.source machine 1 % instruction.source machine 2) := by
  unfold assignRemainder assign
  cases Operand.destination (instruction.operand 0) with
  | error fault => rfl
  | ok register => simp only [nonzero, if_false]

theorem execute_of_formula? {H : Type} [Host H] {instruction : Instruction} {machine : Machine}
    {host : H} (found : instruction.opcode.formula? = some formula)
    (divides : instruction.opcode = .modulo → instruction.source machine 2 ≠ 0) :
    execute instruction machine host =
      assign instruction machine host
        (formula (instruction.source machine 1) (instruction.source machine 2)) := by
  unfold execute
  cases isOpcode : instruction.opcode with
  | equal | greater | add | multiply | bitAnd | bitOr | bitNot =>
      rw [isOpcode] at found
      cases found
      rfl
  | modulo =>
      rw [isOpcode] at found
      cases found
      exact assignRemainder_of_ne (divides isOpcode)
  | _ =>
      rw [isOpcode] at found
      contradiction

theorem computes_of_formula? (takes : opcode.Takes sources)
    (found : opcode.formula? = some formula)
    (divides : opcode = .modulo → (sources[1]?).getD 0 ≠ 0) :
    opcode.Computes sources (formula ((sources[0]?).getD 0) ((sources[1]?).getD 0)) := by
  refine ⟨takes, ?_⟩
  intro H _ instruction machine host register isOpcode isSources names
  subst isOpcode isSources
  rw [execute_of_formula? found (by rwa [Instruction.source_succ]), Instruction.source_succ,
    Instruction.source_succ, assign, Operand.destination,
    Instruction.register?_of_destination? names]

/-! ## It computes one word only -/

theorem Computes.unique (first : opcode.Computes sources word)
    (second : opcode.Computes sources other) : word = other := by
  obtain ⟨instruction, machine, register, isOpcode, isSources, names⟩ := first.takes
  -- Any host will do: the word is read from the register that both executions set.
  let host := BufferedHost.start false
  have firstStores := first.stores instruction machine host register isOpcode isSources names
  have secondStores := second.stores instruction machine host register isOpcode isSources names
  have same := congrArg (fun execution => execution.machine.registers.get register)
    (firstStores.symm.trans secondStores)
  simpa only [Machine.setRegister, RegisterFile.get_set_same] using same

theorem Computes.iff_eq (computes : opcode.Computes sources word) :
    opcode.Computes sources other ↔ other = word := by
  constructor
  · exact fun computesOther => computesOther.unique computes
  · rintro rfl
    exact computes

theorem named?_ofRegister (register : Register) :
    View.named? (Operand.ofRegister register) = some register := by
  rw [View.named?_eq, Operand.register?_ofRegister]

/-- Some machine has these words in R0 and R1. -/
theorem exists_value_eq (first second : Word) :
    ∃ machine : Machine, machine.view.value (Operand.ofRegister 0) = first ∧
      machine.view.value (Operand.ofRegister 1) = second := by
  refine ⟨((Machine.fresh .empty).setRegister 0 first).setRegister 1 second, ?_, ?_⟩
  · rw [View.value, named?_ofRegister]
    exact (RegisterFile.get_set_other _ second (by decide)).trans
      (RegisterFile.get_set_same _ 0 first)
  · rw [View.value, named?_ofRegister]
    exact RegisterFile.get_set_same _ 1 second

theorem takes_pair (three : opcode.arity = 3) : opcode.Takes [left, right] := by
  obtain ⟨machine, holdsLeft, holdsRight⟩ := exists_value_eq left right
  let operands := [Operand.ofRegister 0, Operand.ofRegister 0, Operand.ofRegister 1]
  refine ⟨⟨0, opcode, operands, three.symm⟩, machine, 0, rfl, ?_, named?_ofRegister 0⟩
  show [machine.view.value _, machine.view.value _] = [left, right]
  rw [holdsLeft, holdsRight]

theorem takes_single (two : opcode.arity = 2) (source : Word) : opcode.Takes [source] := by
  obtain ⟨machine, holds, _⟩ := exists_value_eq source 0
  let operands := [Operand.ofRegister 0, Operand.ofRegister 0]
  refine ⟨⟨0, opcode, operands, two.symm⟩, machine, 0, rfl, ?_, named?_ofRegister 0⟩
  show [machine.view.value _] = [source]
  rw [holds]

theorem computes_pair_iff (found : opcode.formula? = some formula) (three : opcode.arity = 3)
    (divides : opcode = .modulo → right ≠ 0) :
    opcode.Computes [left, right] word ↔ word = formula left right := by
  have computes : opcode.Computes [left, right] (formula left right) :=
    computes_of_formula? (takes_pair three) found divides
  exact computes.iff_eq

theorem computes_single_iff {source : Word} (found : opcode.formula? = some formula)
    (two : opcode.arity = 2) (whole : opcode ≠ .modulo) :
    opcode.Computes [source] word ↔ word = formula source 0 := by
  have computes : opcode.Computes [source] (formula source 0) :=
    computes_of_formula? (takes_single two source) found fun isModulo => absurd isModulo whole
  exact computes.iff_eq

/-! ## The numbers -/

theorem computes_add_iff :
    Opcode.add.Computes [left, right] word ↔
      word.toNat = (left.toNat + right.toNat) % 32768 := by
  rw [computes_pair_iff (rfl : Opcode.add.formula? = some _) rfl nofun, Word.eq_reduced_iff]

theorem computes_multiply_iff :
    Opcode.multiply.Computes [left, right] word ↔
      word.toNat = (left.toNat * right.toNat) % 32768 := by
  rw [computes_pair_iff (rfl : Opcode.multiply.formula? = some _) rfl nofun, Word.eq_reduced_iff]

theorem computes_modulo_iff (nonzero : right ≠ 0) :
    Opcode.modulo.Computes [left, right] word ↔ word.toNat = left.toNat % right.toNat := by
  rw [computes_pair_iff (rfl : Opcode.modulo.formula? = some _) rfl fun _ => nonzero,
    ← UInt16.toNat_inj, UInt16.toNat_mod]

theorem computes_bitAnd_iff :
    Opcode.bitAnd.Computes [left, right] word ↔ word.toNat = left.toNat &&& right.toNat := by
  rw [computes_pair_iff (rfl : Opcode.bitAnd.formula? = some _) rfl nofun, ← UInt16.toNat_inj,
    UInt16.toNat_and]

theorem computes_bitOr_iff :
    Opcode.bitOr.Computes [left, right] word ↔ word.toNat = left.toNat ||| right.toNat := by
  rw [computes_pair_iff (rfl : Opcode.bitOr.formula? = some _) rfl nofun, ← UInt16.toNat_inj,
    UInt16.toNat_or]

theorem computes_bitNot_iff {source : Word} :
    Opcode.bitNot.Computes [source] word ↔ word.toNat = 32767 - source.toNat % 32768 := by
  have bound := source.toNat_lt
  -- All sixteen bits are complemented before the highest is cut off.
  have number : (65535 - source.toNat) % 32768 = 32767 - source.toNat % 32768 := by omega
  rw [computes_single_iff (rfl : Opcode.bitNot.formula? = some _) rfl nofun,
    ← Word.ofNat_complement, Word.eq_reduced_iff, number]

theorem computes_equal_iff :
    Opcode.equal.Computes [left, right] word ↔ word = if left = right then 1 else 0 :=
  computes_pair_iff (rfl : Opcode.equal.formula? = some _) rfl nofun

theorem computes_greater_iff :
    Opcode.greater.Computes [left, right] word ↔
      word = if right.toNat < left.toNat then 1 else 0 := by
  rw [computes_pair_iff (rfl : Opcode.greater.formula? = some _) rfl nofun]
  rfl

/-! ## The laws -/

/-- What the arithmetic opcodes store for sources of these values. -/
structure ExactOn (left right : Word) : Prop where
  sum : ∀ word, Opcode.add.Computes [left, right] word ↔
    word.toNat = (left.toNat + right.toNat) % 32768
  product : ∀ word, Opcode.multiply.Computes [left, right] word ↔
    word.toNat = (left.toNat * right.toNat) % 32768
  narrowSum : ∀ word, Opcode.add.Computes [left, right] word →
    word.Narrows (left.toUInt32 + right.toUInt32) (left.toNat + right.toNat)
  narrowProduct : ∀ word, Opcode.multiply.Computes [left, right] word →
    word.Narrows (left.toUInt32 * right.toUInt32) (left.toNat * right.toNat)
  /-- Only the low fifteen bits of the sources count. -/
  residues : ∀ opcode : Opcode, opcode = .add ∨ opcode = .multiply →
    ∀ otherLeft otherRight : Word, otherLeft.toNat % 32768 = left.toNat % 32768 →
      otherRight.toNat % 32768 = right.toNat % 32768 →
      ∀ word, opcode.Computes [otherLeft, otherRight] word ↔ opcode.Computes [left, right] word
  exchange : ∀ opcode : Opcode, opcode = .add ∨ opcode = .multiply →
    ∀ word, opcode.Computes [right, left] word ↔ opcode.Computes [left, right] word
  complement : ∀ word, Opcode.bitNot.Computes [left] word ↔
    word.toNat = 32767 - left.toNat % 32768
  complementTwice : ∀ once, Opcode.bitNot.Computes [left] once →
    ∀ word, Opcode.bitNot.Computes [once] word ↔ word.toNat = left.toNat % 32768
  remainder : right ≠ 0 → ∃ word, Opcode.modulo.Computes [left, right] word ∧
    word.toNat < right.toNat ∧ ∃ quotient, left.toNat = quotient * right.toNat + word.toNat
  /-- Values stay values. -/
  small : left.toNat < 32768 → right.toNat < 32768 →
    ∀ opcode : Opcode,
      opcode = .bitAnd ∨ opcode = .bitOr ∨ opcode = .modulo ∧ right ≠ 0 →
      ∃ word, opcode.Computes [left, right] word ∧ word.toNat < 32768
  comparison : ∀ opcode : Opcode, opcode = .equal ∨ opcode = .greater →
    ∃ word, opcode.Computes [left, right] word ∧ (word = 0 ∨ word = 1)
  /-- Two words are equal, or one of them is greater, and never two of these at once. -/
  trichotomy :
    let same := Opcode.equal.Computes [left, right] 1
    let leftGreater := Opcode.greater.Computes [left, right] 1
    let rightGreater := Opcode.greater.Computes [right, left] 1
    (same ∧ ¬ leftGreater ∧ ¬ rightGreater) ∨ (¬ same ∧ leftGreater ∧ ¬ rightGreater) ∨
      (¬ same ∧ ¬ leftGreater ∧ rightGreater)

theorem residues_of_mod {otherLeft otherRight : Word}
    (sameLeft : otherLeft.toNat % 32768 = left.toNat % 32768)
    (sameRight : otherRight.toNat % 32768 = right.toNat % 32768) {opcode : Opcode}
    (sumOrProduct : opcode = .add ∨ opcode = .multiply) :
    opcode.Computes [otherLeft, otherRight] word ↔ opcode.Computes [left, right] word := by
  rcases sumOrProduct with rfl | rfl
  · rw [computes_add_iff, computes_add_iff, Nat.add_mod, sameLeft, sameRight, ← Nat.add_mod]
  · rw [computes_multiply_iff, computes_multiply_iff, Nat.mul_mod, sameLeft, sameRight,
      ← Nat.mul_mod]

theorem exchange_sources {opcode : Opcode} (sumOrProduct : opcode = .add ∨ opcode = .multiply) :
    opcode.Computes [right, left] word ↔ opcode.Computes [left, right] word := by
  rcases sumOrProduct with rfl | rfl
  · rw [computes_add_iff, computes_add_iff, Nat.add_comm]
  · rw [computes_multiply_iff, computes_multiply_iff, Nat.mul_comm]

theorem computes_bitNot_twice_iff {once : Word} (computes : Opcode.bitNot.Computes [left] once) :
    Opcode.bitNot.Computes [once] word ↔ word.toNat = left.toNat % 32768 := by
  have number := computes_bitNot_iff.mp computes
  have twice : 32767 - once.toNat % 32768 = left.toNat % 32768 := by omega
  rw [computes_bitNot_iff, twice]

theorem exists_small (leftSmall : left.toNat < 32768) (rightSmall : right.toNat < 32768)
    {opcode : Opcode} (mask : opcode = .bitAnd ∨ opcode = .bitOr ∨ opcode = .modulo ∧ right ≠ 0) :
    ∃ word, opcode.Computes [left, right] word ∧ word.toNat < 32768 := by
  rcases mask with rfl | rfl | ⟨rfl, nonzero⟩
  · refine ⟨left &&& right, computes_bitAnd_iff.mpr (UInt16.toNat_and left right), ?_⟩
    rw [UInt16.toNat_and]
    exact Nat.lt_of_le_of_lt Nat.and_le_right rightSmall
  · refine ⟨left ||| right, computes_bitOr_iff.mpr (UInt16.toNat_or left right), ?_⟩
    rw [UInt16.toNat_or]
    have bound : left.toNat ||| right.toNat < 2 ^ 15 := Nat.or_lt_two_pow leftSmall rightSmall
    exact bound
  · refine ⟨left % right, (computes_modulo_iff nonzero).mpr (UInt16.toNat_mod left right), ?_⟩
    rw [UInt16.toNat_mod]
    exact Nat.lt_of_le_of_lt (Nat.mod_le _ _) leftSmall

theorem exists_remainder (nonzero : right ≠ 0) :
    ∃ word, Opcode.modulo.Computes [left, right] word ∧ word.toNat < right.toNat ∧
      ∃ quotient, left.toNat = quotient * right.toNat + word.toNat := by
  have positive : 0 < right.toNat := by
    rw [Nat.pos_iff_ne_zero]
    exact fun isZero => nonzero (UInt16.toNat_inj.mp isZero)
  refine ⟨left % right, (computes_modulo_iff nonzero).mpr (UInt16.toNat_mod left right), ?_,
    left.toNat / right.toNat, ?_⟩
  · rw [UInt16.toNat_mod]
    exact Nat.mod_lt _ positive
  · rw [UInt16.toNat_mod]
    exact (Nat.div_add_mod' _ _).symm

theorem computes_equal_one_iff : Opcode.equal.Computes [left, right] 1 ↔ left = right := by
  rw [computes_equal_iff]
  split
  · next same => exact ⟨fun _ => same, fun _ => rfl⟩
  · next different => exact ⟨nofun, fun same => absurd same different⟩

theorem computes_greater_one_iff :
    Opcode.greater.Computes [left, right] 1 ↔ right.toNat < left.toNat := by
  rw [computes_greater_iff]
  split
  · next greater => exact ⟨fun _ => greater, fun _ => rfl⟩
  · next notGreater => exact ⟨nofun, fun greater => absurd greater notGreater⟩

/-- Sums, products, complements, remainders, masks and comparisons are exact for all words. -/
theorem arithmetic_is_exact (left right : Word) : ExactOn left right where
  sum _ := computes_add_iff
  product _ := computes_multiply_iff
  narrowSum _ computes :=
    Word.narrows_of_holds (Word.toNat_wideSum left right) (computes_add_iff.mp computes)
  narrowProduct _ computes :=
    Word.narrows_of_holds (Word.toNat_wideProduct left right) (computes_multiply_iff.mp computes)
  residues _ either _ _ sameLeft sameRight _ := residues_of_mod sameLeft sameRight either
  exchange _ either _ := exchange_sources either
  complement _ := computes_bitNot_iff
  complementTwice _ computes _ := computes_bitNot_twice_iff computes
  remainder := exists_remainder
  small leftSmall rightSmall _ mask := exists_small leftSmall rightSmall mask
  comparison opcode compares := by
    rcases compares with rfl | rfl
    · exact ⟨_, computes_equal_iff.mpr rfl, (ite_eq_or_eq _ _ _).symm⟩
    · exact ⟨_, computes_greater_iff.mpr rfl, (ite_eq_or_eq _ _ _).symm⟩
  trichotomy := by
    simp only [computes_equal_one_iff, computes_greater_one_iff, ← UInt16.toNat_inj]
    omega

/-- The largest word, multiplied by itself. -/
example :
    let square : Instruction := ⟨0, .multiply, [32768, 65535, 65535], rfl⟩
    (execute square (.fresh .empty) (BufferedHost.start false)).machine.register 0 = 1 := by
  decide

end Opcode

end RegisterMachine
