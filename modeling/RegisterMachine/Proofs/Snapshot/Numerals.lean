import RegisterMachine.Proofs.Json.Grammar
import RegisterMachine.Snapshot.Printer

/-!
Contract: decimal numbers are JSON as they are written.

A number is written without sign, fraction, exponent or leading zeros, so its
text is that of the whole part of a JSON number, and its digits have its value.

Owns: the digits of a number, `partsOf`.
Does not own: other parts of a snapshot (`Proofs.Snapshot.Values`).
-/

namespace RegisterMachine.Snapshot

open Json Json.Mark

/-! ## Digits -/

theorem bounds_of_mem_toDigits {value : Nat} {character : Char}
    (member : character ∈ Nat.toDigits 10 value) :
    48 ≤ character.toNat ∧ character.toNat ≤ 57 := by
  have digit := Nat.isDigit_of_mem_toDigits (by omega) (by omega) member
  simp only [Char.isDigit, Bool.and_eq_true, decide_eq_true_eq] at digit
  exact digit

theorem toNat_letter_of_mem_toDigits {value : Nat} {character : Char}
    (member : character ∈ Nat.toDigits 10 value) :
    (letter character).toNat = character.toNat := by
  have bounds := bounds_of_mem_toDigits member
  exact toNat_letter (by omega)

theorem isDigit_of_mem_ofNatural {value : Nat} {byte : UInt8} (member : byte ∈ ofNatural value) :
    isDigit byte = true := by
  obtain ⟨character, digit, rfl⟩ := List.mem_map.mp member
  have bounds := bounds_of_mem_toDigits digit
  have same := toNat_letter_of_mem_toDigits digit
  simp only [isDigit, Bool.and_eq_true, decide_eq_true_eq, UInt8.le_iff_toNat_le, same]
  exact bounds

theorem ofNatural_ne_nil (value : Nat) : ofNatural value ≠ [] := by
  intro empty
  exact Nat.toDigits_ne_nil (List.map_eq_nil_iff.mp empty)

/-- The value of the written digits is the written value. -/
theorem ofDigits_ofNatural (value : Nat) :
    NumberParts.ofDigits ((ofNatural value).map digitValue) = value := by
  have digitValues : (ofNatural value).map digitValue =
      (Nat.toDigits 10 value).map fun character => character.toNat - 48 := by
    rw [ofNatural, List.map_map]
    apply List.map_congr_left
    intro character member
    show (letter character).toNat - 48 = character.toNat - 48
    rw [toNat_letter_of_mem_toDigits member]
  calc
    NumberParts.ofDigits ((ofNatural value).map digitValue)
        = Nat.ofDigitChars 10 (Nat.toDigits 10 value) 0 := by
          rw [digitValues, NumberParts.ofDigits, List.foldl_map, Nat.ofDigitChars_eq_foldl]
          rfl
    _ = value := Nat.ofDigitChars_ten_toDigits

/-- Only zero is written with a zero in front. -/
theorem head_toDigits_ne_zero {value : Nat} (positive : 0 < value) :
    (Nat.toDigits 10 value).head? ≠ some '0' := by
  induction value using Nat.strongRecOn with
  | ind value inductionHypothesis =>
      rw [Nat.toDigits_eq_if (by omega)]
      split
      · rw [List.head?_cons]
        intro isZero
        have zeroValue := Nat.digitChar_eq_zero.mp (Option.some.inj isZero)
        omega
      · have shorter := inductionHypothesis (value / 10) (by omega) (by omega)
        obtain ⟨first, more, written⟩ :=
          List.exists_cons_of_ne_nil (Nat.toDigits_ne_nil (n := value / 10) (b := 10))
        rw [written] at shorter ⊢
        exact shorter

theorem head_ofNatural_ne_zero {value : Nat} (positive : 0 < value) :
    (ofNatural value).head? ≠ some zero := by
  intro isZero
  rw [ofNatural, List.head?_map, Option.map_eq_some_iff] at isZero
  obtain ⟨character, isHead, isZero⟩ := isZero
  have member := List.mem_of_head? isHead
  have charZero : character = '0' := by
    apply Char.ext
    apply UInt32.toNat_inj.mp
    show character.toNat = 48
    rw [← toNat_letter_of_mem_toDigits member, isZero]
    rfl
  rw [charZero] at isHead
  exact head_toDigits_ne_zero positive isHead

/-! ## Numbers -/

/-- The parts of a written number. -/
def partsOf (value : Nat) : NumberParts := ⟨false, (ofNatural value).map digitValue, none, none⟩

theorem wholeText_ofNatural (value : Nat) :
    WholeText ((ofNatural value).map digitValue) (ofNatural value) := by
  rcases Nat.eq_zero_or_pos value with isZero | positive
  · subst isZero
    exact .zero
  · have digits : DigitsText ((ofNatural value).map digitValue) (ofNatural value) :=
      ⟨ofNatural_ne_nil value, fun _ member => isDigit_of_mem_ofNatural member, rfl⟩
    exact .digits digits (head_ofNatural_ne_zero positive)

theorem numberText_ofNatural (value : Nat) : NumberText (partsOf value) (ofNatural value) := by
  have written := NumberText.parts .absent (wholeText_ofNatural value) .absent .absent
  rw [List.nil_append, List.append_nil, List.append_nil] at written
  exact written

end RegisterMachine.Snapshot
