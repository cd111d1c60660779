/-!
Contract: numbers as a user types them.

A number is decimal, or hexadecimal after `0x` or `0X`. One plus sign may stand
before the digits, of which there is at least one, and the value must be below
2^64; that of an address below 65536.

Owns: reading numbers and addresses, `InvalidNumber`.
Does not own: which arguments are numbers (`Arguments`).
-/

namespace RegisterMachine

/-- A text that is no number in range. -/
structure InvalidNumber where
  text : String
deriving DecidableEq, Repr

def InvalidNumber.message (invalid : InvalidNumber) : String :=
  "invalid number '" ++ invalid.text ++ "'"

namespace Numeral

inductive Radix where
  | decimal
  | hexadecimal
deriving DecidableEq, Repr

def Radix.base : Radix → Nat
  | .decimal => 10
  | .hexadecimal => 16

/-- The value of a letter or decimal digit as a digit of a large enough base. -/
def digitValue? (character : Char) : Option Nat :=
  if '0' ≤ character ∧ character ≤ '9' then some (character.toNat - '0'.toNat)
  else if 'a' ≤ character ∧ character ≤ 'z' then some (character.toNat - 'a'.toNat + 10)
  else if 'A' ≤ character ∧ character ≤ 'Z' then some (character.toNat - 'A'.toNat + 10)
  else none

/-- The value of a character as a digit. -/
def digit? (radix : Radix) (character : Char) : Option Nat :=
  (digitValue? character).filter fun value => decide (value < radix.base)

/-- The value of digits that follow digits of the value `high`. -/
def valueFrom? (radix : Radix) (high : Nat) : List Char → Option Nat
  | [] => some high
  | character :: rest =>
      match digit? radix character with
      | none => none
      | some digit => valueFrom? radix (radix.base * high + digit) rest

/-- The value of at least one digit. -/
def value? (radix : Radix) : List Char → Option Nat
  | [] => none
  | first :: rest => valueFrom? radix 0 (first :: rest)

/-- The text without one plus sign at its start. -/
def dropPlus : List Char → List Char
  | '+' :: rest => rest
  | characters => characters

/-- The radix that a text announces, and what follows the announcement. -/
def splitRadix : List Char → Radix × List Char
  | '0' :: 'x' :: rest => (.hexadecimal, rest)
  | '0' :: 'X' :: rest => (.hexadecimal, rest)
  | characters => (.decimal, characters)

/-- The number below a bound that a text writes. -/
def readBelow (bound : Nat) (text : String) : Except InvalidNumber Nat :=
  let (radix, characters) := splitRadix text.toList
  match value? radix (dropPlus characters) with
  | none => .error ⟨text⟩
  | some value => if value < bound then .ok value else .error ⟨text⟩

/-- The number that a text writes. -/
def readNumber (text : String) : Except InvalidNumber Nat := readBelow 0x10000000000000000 text

/-- The address that a text writes. -/
def readAddress (text : String) : Except InvalidNumber Nat := readBelow 0x10000 text

end Numeral

end RegisterMachine
