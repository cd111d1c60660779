import RegisterMachine.Numeral

/-!
Contract: a number in decimal is read back.

A decimal text begins with a digit, so it announces no other radix and has no
sign, and its digits have the value that was written.

Owns: the reading of decimal texts.
Does not own: where numbers are typed (`Arguments`).
-/

namespace RegisterMachine.Numeral

/-! ## Digits -/

theorem digit?_decimal {character : Char} (isDigit : character.isDigit = true) :
    digit? .decimal character = some (character.toNat - '0'.toNat) := by
  simp only [Char.isDigit, Bool.and_eq_true, decide_eq_true_eq] at isDigit
  have inRange : '0' ≤ character ∧ character ≤ '9' := isDigit
  have small : character.toNat - '0'.toNat < 10 := by
    have atMost : character.toNat ≤ 57 := isDigit.2
    show character.toNat - 48 < 10
    omega
  rw [digit?, digitValue?, if_pos inRange]
  exact if_pos (decide_eq_true small)

theorem valueFrom?_decimal {digits : List Char} (allDigits : ∀ digit ∈ digits, digit.isDigit = true)
    (high : Nat) : valueFrom? .decimal high digits = some (Nat.ofDigitChars 10 digits high) := by
  induction digits generalizing high with
  | nil => rfl
  | cons digit digits inductionHypothesis =>
      obtain ⟨isDigit, later⟩ := List.forall_mem_cons.mp allDigits
      rw [valueFrom?, digit?_decimal isDigit]
      exact inductionHypothesis later _

theorem splitRadix_decimal {digits : List Char}
    (allDigits : ∀ digit ∈ digits, digit.isDigit = true) :
    splitRadix digits = (.decimal, digits) := by
  unfold splitRadix
  split
  · exact absurd (allDigits 'x' (by simp)) (by decide)
  · exact absurd (allDigits 'X' (by simp)) (by decide)
  · rfl

theorem dropPlus_decimal {digits : List Char}
    (allDigits : ∀ digit ∈ digits, digit.isDigit = true) : dropPlus digits = digits := by
  unfold dropPlus
  split
  · exact absurd (allDigits '+' (by simp)) (by decide)
  · rfl

/-! ## Numbers -/

theorem readBelow_toString {bound value : Nat} (below : value < bound) :
    readBelow bound (toString value) = .ok value := by
  have written : (toString value).toList = Nat.toDigits 10 value := Nat.toList_repr
  have allDigits : ∀ digit ∈ Nat.toDigits 10 value, digit.isDigit = true :=
    fun digit member => Nat.isDigit_of_mem_toDigits (by omega) (by omega) member
  have isValue : value? .decimal (Nat.toDigits 10 value) = some value := by
    obtain ⟨first, rest, digits⟩ :=
      List.exists_cons_of_ne_nil (Nat.toDigits_ne_nil (n := value) (b := 10))
    rw [digits] at allDigits ⊢
    rw [value?, valueFrom?_decimal allDigits, ← digits, Nat.ofDigitChars_ten_toDigits]
  rw [readBelow, written, splitRadix_decimal allDigits]
  simp only [dropPlus_decimal allDigits, isValue, below, if_true]

/-- Every number of 64 bits can be typed in decimal. -/
theorem readNumber_toString {value : Nat} (below : value < 0x10000000000000000) :
    readNumber (toString value) = .ok value := readBelow_toString below

/-- Every address that a word can name can be typed in decimal. -/
theorem readAddress_toString {value : Nat} (below : value < 0x10000) :
    readAddress (toString value) = .ok value := readBelow_toString below

end RegisterMachine.Numeral
