import Mathlib.Data.List.Forall2
import Mathlib.Data.Nat.Digits.Defs
import RegisterMachine.Proofs.Numerals

/-!
Contract: which texts are numbers, and of which value.

The digits of a number are summed up from the left with no bound, so leading
zeros are of no account, and a value that is too large is noticed however it is
written. A decimal number with a plus sign or a second mark in it cannot be
taken for a hexadecimal one, since neither of these marks is a digit.

Owns: `Spells`, the grammar of numbers with their values.
Does not own: where numbers are typed (`Arguments`).
-/

namespace RegisterMachine.Numeral

/-- The character is the digit of this value, as a small or a large letter. -/
def IsDigit (radix : Radix) (character : Char) (value : Nat) : Prop :=
  value < radix.base ∧ (character = value.digitChar ∨ character = value.digitChar.toUpper)

/-- The characters are digits with these values, and there is at least one. -/
structure AreDigits (radix : Radix) (characters : List Char) (values : List Nat) : Prop where
  nonempty : characters ≠ []
  each : List.Forall₂ (IsDigit radix) characters values

/-- The number whose digits have these values, the most significant first. -/
def positional (radix : Radix) (values : List Nat) : Nat := Nat.ofDigits radix.base values.reverse

/-- Digits of a radix, with or without a plus sign. -/
inductive SpellsIn (radix : Radix) : List Char → Nat → Prop where
  | unsigned {digits : List Char} {values : List Nat} (areDigits : AreDigits radix digits values) :
      SpellsIn radix digits (positional radix values)
  | signed {digits : List Char} {values : List Nat} (areDigits : AreDigits radix digits values) :
      SpellsIn radix ('+' :: digits) (positional radix values)

/-- The text is a number of this value. -/
inductive Spells : List Char → Nat → Prop where
  | decimal {characters : List Char} {value : Nat} (spells : SpellsIn .decimal characters value) :
      Spells characters value
  | hexadecimal {mark : Char} {characters : List Char} {value : Nat}
      (isMark : mark = 'x' ∨ mark = 'X') (spells : SpellsIn .hexadecimal characters value) :
      Spells ('0' :: mark :: characters) value

/-! ## Digits -/

theorem base_le (radix : Radix) : radix.base ≤ 16 := by
  cases radix <;> decide

theorem digitValue?_digitChar :
    ∀ value < 16, digitValue? value.digitChar = some value ∧
      digitValue? value.digitChar.toUpper = some value := by
  decide

/-- Characters that follow each other are told apart by how far they are from the first one. -/
theorem eq_ofNat_of_le {first character : Char} (least : first ≤ character) :
    character = Char.ofNat (first.toNat + (character.toNat - first.toNat)) := by
  have ordered : first.toNat ≤ character.toNat := least
  rw [Nat.add_sub_cancel' ordered, Char.ofNat_toNat]

theorem digitChar_of_digitValue? {character : Char} {value : Nat} (small : value < 16)
    (found : digitValue? character = some value) :
    character = value.digitChar ∨ character = value.digitChar.toUpper := by
  have decimal : ∀ offset < 10, Char.ofNat ('0'.toNat + offset) = offset.digitChar := by decide
  have lower : ∀ offset < 6, Char.ofNat ('a'.toNat + offset) = (offset + 10).digitChar := by decide
  have upper : ∀ offset < 6, Char.ofNat ('A'.toNat + offset) = (offset + 10).digitChar.toUpper := by
    decide
  unfold digitValue? at found
  split at found
  · next range =>
      cases found
      have most : character.toNat ≤ '9'.toNat := range.2
      have below : character.toNat - '0'.toNat < 10 := Nat.lt_succ_of_le (Nat.sub_le_of_le_add most)
      exact .inl ((eq_ofNat_of_le range.1).trans (decimal _ below))
  · split at found
    · next range =>
        cases found
        exact .inl ((eq_ofNat_of_le range.1).trans (lower _ (Nat.lt_of_add_lt_add_right small)))
    · split at found
      · next range =>
          cases found
          exact .inr ((eq_ofNat_of_le range.1).trans (upper _ (Nat.lt_of_add_lt_add_right small)))
      · cases found

theorem digit?_eq_some_iff {radix : Radix} {character : Char} {value : Nat} :
    digit? radix character = some value ↔ IsDigit radix character value := by
  rw [digit?, Option.filter_eq_some_iff, decide_eq_true_iff, and_comm, IsDigit]
  refine and_congr_right fun below => ?_
  have small : value < 16 := Nat.lt_of_lt_of_le below (base_le radix)
  constructor
  · exact digitChar_of_digitValue? small
  · rintro (rfl | rfl)
    · exact (digitValue?_digitChar value small).1
    · exact (digitValue?_digitChar value small).2

/-! ## Numbers -/

theorem positional_cons (radix : Radix) (digit : Nat) (later : List Nat) :
    positional radix (digit :: later) =
      radix.base ^ later.length * digit + positional radix later := by
  rw [positional, positional, List.reverse_cons, Nat.ofDigits_append, Nat.ofDigits_singleton,
    List.length_reverse, Nat.add_comm]

/-- Digits are read as those that follow the number `high`. -/
theorem valueFrom?_eq_some_iff {radix : Radix} {characters : List Char} {high total : Nat} :
    valueFrom? radix high characters = some total ↔
      ∃ values, List.Forall₂ (IsDigit radix) characters values ∧
        high * radix.base ^ values.length + positional radix values = total := by
  induction characters generalizing high with
  | nil => simp [valueFrom?, positional]
  | cons character later inductionHypothesis =>
      have shift (digit : Nat) (values : List Nat) :
          (radix.base * high + digit) * radix.base ^ values.length + positional radix values =
            high * radix.base ^ (digit :: values).length + positional radix (digit :: values) := by
        rw [positional_cons, List.length_cons, Nat.pow_succ]
        ring
      simp only [List.forall₂_cons_left_iff]
      constructor
      · intro found
        rw [valueFrom?] at found
        split at found
        · cases found
        · next digit read =>
            obtain ⟨values, each, sum⟩ := inductionHypothesis.mp found
            exact ⟨digit :: values, ⟨digit, values, digit?_eq_some_iff.mp read, each, rfl⟩,
              (shift digit values).symm.trans sum⟩
      · rintro ⟨_, ⟨digit, values, isDigit, each, rfl⟩, sum⟩
        rw [valueFrom?, digit?_eq_some_iff.mpr isDigit]
        exact inductionHypothesis.mpr ⟨values, each, (shift digit values).trans sum⟩

theorem value?_eq_some_iff {radix : Radix} {characters : List Char} {value : Nat} :
    value? radix characters = some value ↔
      ∃ values, AreDigits radix characters values ∧ positional radix values = value := by
  cases characters with
  | nil => exact ⟨nofun, fun ⟨_, areDigits, _⟩ => absurd rfl areDigits.nonempty⟩
  | cons first rest =>
      rw [value?, valueFrom?_eq_some_iff]
      simp only [Nat.zero_mul, Nat.zero_add]
      constructor
      · rintro ⟨values, each, sum⟩
        exact ⟨values, ⟨List.cons_ne_nil first rest, each⟩, sum⟩
      · rintro ⟨values, areDigits, sum⟩
        exact ⟨values, areDigits.each, sum⟩

/-! ## Signs and marks -/

theorem not_isDigit_of_digitValue? {radix : Radix} {character : Char} {value : Nat}
    (noDigit : digitValue? character = none) : ¬ IsDigit radix character value := by
  intro isDigit
  have read := digit?_eq_some_iff.mpr isDigit
  rw [digit?, noDigit] at read
  cases read

theorem AreDigits.dropPlus {radix : Radix} {digits : List Char} {values : List Nat}
    (areDigits : AreDigits radix digits values) : Numeral.dropPlus digits = digits := by
  unfold Numeral.dropPlus
  split
  · next rest =>
      obtain ⟨_, _, isDigit, _, _⟩ := List.forall₂_cons_left_iff.mp areDigits.each
      exact absurd isDigit (not_isDigit_of_digitValue? (by decide))
  · rfl

theorem value?_dropPlus_eq_some_iff {radix : Radix} {characters : List Char} {value : Nat} :
    value? radix (dropPlus characters) = some value ↔ SpellsIn radix characters value := by
  rw [value?_eq_some_iff]
  constructor
  · rintro ⟨values, areDigits, rfl⟩
    unfold dropPlus at areDigits
    split at areDigits
    · exact .signed areDigits
    · exact .unsigned areDigits
  · intro spells
    cases spells with
    | unsigned areDigits =>
        rw [areDigits.dropPlus]
        exact ⟨_, areDigits, rfl⟩
    | signed areDigits => exact ⟨_, areDigits, rfl⟩

/-- In a decimal number, no letter stands in the second place. -/
theorem not_spellsIn_decimal {mark : Char} {characters : List Char} {value : Nat}
    (isMark : mark = 'x' ∨ mark = 'X') : ¬ SpellsIn .decimal ('0' :: mark :: characters) value := by
  intro spells
  cases spells with
  | unsigned areDigits =>
      obtain ⟨_, _, _, later, _⟩ := List.forall₂_cons_left_iff.mp areDigits.each
      obtain ⟨_, _, isDigit, _, _⟩ := List.forall₂_cons_left_iff.mp later
      have read := digit?_eq_some_iff.mpr isDigit
      rcases isMark with rfl | rfl <;> cases read

theorem spells_marked_iff {mark : Char} {characters : List Char} {value : Nat}
    (isMark : mark = 'x' ∨ mark = 'X') :
    Spells ('0' :: mark :: characters) value ↔ SpellsIn .hexadecimal characters value := by
  constructor
  · intro spells
    cases spells with
    | decimal spells => exact absurd spells (not_spellsIn_decimal isMark)
    | hexadecimal _ spells => exact spells
  · exact .hexadecimal isMark

theorem spells_iff {characters : List Char} {value : Nat} :
    Spells characters value ↔
      SpellsIn (splitRadix characters).1 (splitRadix characters).2 value := by
  unfold splitRadix
  split
  · exact spells_marked_iff (.inl rfl)
  · exact spells_marked_iff (.inr rfl)
  · next notLower notUpper =>
      constructor
      · intro spells
        cases spells with
        | decimal spells => exact spells
        | hexadecimal isMark _ =>
            rcases isMark with rfl | rfl
            · exact absurd rfl (notLower _)
            · exact absurd rfl (notUpper _)
      · exact .decimal

theorem readBelow_eq_ok_iff {bound value : Nat} {text : String} :
    readBelow bound text = .ok value ↔ Spells text.toList value ∧ value < bound := by
  rw [spells_iff, ← value?_dropPlus_eq_some_iff]
  unfold readBelow
  simp only
  cases value? (splitRadix text.toList).1 (dropPlus (splitRadix text.toList).2) with
  | none => simp
  | some found =>
      simp only [Option.some.injEq]
      split
      · next below =>
          constructor
          · rintro ⟨⟩
            exact ⟨rfl, below⟩
          · rintro ⟨rfl, _⟩
            rfl
      · next atLeast =>
          constructor
          · exact nofun
          · rintro ⟨rfl, below⟩
            exact absurd below atLeast

theorem text_of_readBelow {bound : Nat} {text : String} {invalid : InvalidNumber}
    (refused : readBelow bound text = .error invalid) : invalid = ⟨text⟩ := by
  unfold readBelow at refused
  simp only at refused
  split at refused
  · exact (Except.error.inj refused).symm
  · split at refused
    · cases refused
    · exact (Except.error.inj refused).symm

/-- A text is a number or it is refused as a whole. -/
theorem readBelow_eq_error_iff {bound : Nat} {text : String} {invalid : InvalidNumber} :
    readBelow bound text = .error invalid ↔
      (¬ ∃ value, Spells text.toList value ∧ value < bound) ∧ invalid = ⟨text⟩ := by
  simp only [← readBelow_eq_ok_iff]
  cases read : readBelow bound text with
  | ok value => simp
  | error other => simp [text_of_readBelow read, eq_comm]

/-! ## Written numbers -/

/-- The large form of a letter, or the letter itself. -/
def lettered (large : Bool) (character : Char) : Char :=
  if large then character.toUpper else character

/-- A number in hexadecimal, with a small or a large mark and with small or large letters. -/
def hexText (largeMark largeLetters : Bool) (value : Nat) : String :=
  .ofList ('0' :: lettered largeMark 'x' :: (Nat.toDigits 16 value).map (lettered largeLetters))

theorem positional_concat (radix : Radix) (values : List Nat) (digit : Nat) :
    positional radix (values ++ [digit]) = digit + radix.base * positional radix values := by
  rw [positional, List.reverse_append, List.reverse_singleton, List.singleton_append,
    Nat.ofDigits_cons, positional]

/-- A number is the number of its digits, in whatever case they are written. -/
theorem exists_areDigits_toDigits (radix : Radix) {write : Char → Char}
    (writes : ∀ value < radix.base, IsDigit radix (write value.digitChar) value) (value : Nat) :
    ∃ values, AreDigits radix ((Nat.toDigits radix.base value).map write) values ∧
      positional radix values = value := by
  have plural : 1 < radix.base := by cases radix <;> decide
  induction value using Nat.strongRecOn with
  | ind value inductionHypothesis =>
      rw [Nat.toDigits_eq_if plural]
      split
      · next small =>
          exact ⟨[value], ⟨List.cons_ne_nil _ _, .cons (writes value small) .nil⟩,
            Nat.ofDigits_singleton⟩
      · next large =>
          have smaller : value / radix.base < value := Nat.div_lt_self (by omega) plural
          obtain ⟨values, areDigits, sum⟩ := inductionHypothesis _ smaller
          have last := writes (value % radix.base) (Nat.mod_lt value (by omega))
          refine ⟨values ++ [value % radix.base], ⟨by simp, ?_⟩, ?_⟩
          · rw [List.map_append]
            exact List.rel_append areDigits.each (.cons last .nil)
          · rw [positional_concat, sum, Nat.mod_add_div]

theorem spells_hexText (largeMark largeLetters : Bool) (value : Nat) :
    Spells (hexText largeMark largeLetters value).toList value := by
  have isMark : lettered largeMark 'x' = 'x' ∨ lettered largeMark 'x' = 'X' := by
    cases largeMark <;> decide
  have writes : ∀ digit < Radix.hexadecimal.base,
      IsDigit .hexadecimal (lettered largeLetters digit.digitChar) digit := by
    intro digit small
    cases largeLetters with
    | false => exact ⟨small, .inl rfl⟩
    | true => exact ⟨small, .inr rfl⟩
  obtain ⟨values, areDigits, sum⟩ := exists_areDigits_toDigits .hexadecimal writes value
  rw [hexText, String.toList_ofList]
  refine .hexadecimal isMark ?_
  rw [← sum] at areDigits ⊢
  exact .unsigned areDigits

/-- A text is read as a number exactly if it spells one of 64 bits, and as an address exactly if
this number is one of 16 bits; otherwise it is refused, and named as it is. Each number of 64 bits
is read back from its decimal and its hexadecimal forms. -/
theorem reads_spelled_numbers (text : String) :
    (∀ value, readNumber text = .ok value ↔ Spells text.toList value ∧ value < 2 ^ 64) ∧
    (∀ invalid, readNumber text = .error invalid ↔
      (¬ ∃ value, Spells text.toList value ∧ value < 2 ^ 64) ∧ invalid = ⟨text⟩) ∧
    (∀ value, readAddress text = .ok value ↔ readNumber text = .ok value ∧ value < 2 ^ 16) ∧
    (∀ invalid, readAddress text = .error invalid ↔
      (¬ ∃ value, readNumber text = .ok value ∧ value < 2 ^ 16) ∧ invalid = ⟨text⟩) ∧
    ∀ value : UInt64, readNumber (toString value.toNat) = .ok value.toNat ∧
      ∀ largeMark largeLetters,
        readNumber (hexText largeMark largeLetters value.toNat) = .ok value.toNat := by
  have isAddress (value : Nat) :
      readNumber text = .ok value ∧ value < 2 ^ 16 ↔ Spells text.toList value ∧ value < 2 ^ 16 := by
    rw [readNumber, readBelow_eq_ok_iff, and_assoc]
    refine and_congr_right fun _ => ⟨And.right, fun below => ⟨?_, below⟩⟩
    omega
  simp only [isAddress]
  refine ⟨fun value => readBelow_eq_ok_iff, fun invalid => readBelow_eq_error_iff,
    fun value => readBelow_eq_ok_iff, fun invalid => readBelow_eq_error_iff, fun value => ?_⟩
  have below : value.toNat < 0x10000000000000000 := value.toNat_lt
  exact ⟨readNumber_toString below, fun largeMark largeLetters =>
    readBelow_eq_ok_iff.mpr ⟨spells_hexText largeMark largeLetters value.toNat, below⟩⟩

/-- Zeros and a sign do not change a number, and a second sign is none. -/
example : readNumber "0X+00fF" = .ok 255 ∧ readNumber "++1" = .error ⟨"++1"⟩ := by decide

end RegisterMachine.Numeral
