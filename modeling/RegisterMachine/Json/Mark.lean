import RegisterMachine.Word

/-!
Contract: the bytes that have a meaning in JSON text.

Owns: named bytes, blanks and digits.
Does not own: the grammar (`Json.Skip`, `Json.Value`).
-/

namespace RegisterMachine.Json.Mark

def openBrace : UInt8 := 0x7b
def closeBrace : UInt8 := 0x7d
def openBracket : UInt8 := 0x5b
def closeBracket : UInt8 := 0x5d
def comma : UInt8 := 0x2c
def colon : UInt8 := 0x3a
def quote : UInt8 := 0x22
def backslash : UInt8 := 0x5c
def minus : UInt8 := 0x2d
def plus : UInt8 := 0x2b
def point : UInt8 := 0x2e
def zero : UInt8 := 0x30

/-- The byte of an ASCII letter. -/
def letter (character : Char) : UInt8 := UInt8.ofNat character.toNat

theorem toNat_letter {character : Char} (isAscii : character.toNat < 128) :
    (letter character).toNat = character.toNat := by
  simp only [letter, UInt8.toNat_ofNat']
  omega

theorem letter_ne {character other : Char} (isAscii : character.toNat < 128)
    (otherAscii : other.toNat < 128) (different : character ≠ other) :
    letter character ≠ letter other := by
  intro same
  apply different
  apply Char.ext
  apply UInt32.toNat_inj.mp
  have sameNat := congrArg UInt8.toNat same
  rw [toNat_letter isAscii, toNat_letter otherAscii] at sameNat
  exact sameNat

/-- The bytes of ASCII text. -/
def ascii (text : String) : Bytes := text.toList.map letter

/-- Space, tab, line feed and carriage return may stand between tokens. -/
def isBlank (byte : UInt8) : Bool :=
  byte == 0x20 || byte == 0x09 || byte == 0x0a || byte == 0x0d

def isDigit (byte : UInt8) : Bool := 0x30 ≤ byte && byte ≤ 0x39

theorem ne_of_isDigit {byte other : UInt8} (digit : isDigit byte = true)
    (noDigit : isDigit other = false) : byte ≠ other := by
  intro same
  rw [same, noDigit] at digit
  contradiction

/-- The value of a digit. -/
def digitValue (byte : UInt8) : Nat := byte.toNat - 0x30

/-- The value of a hexadecimal digit in either case. -/
def hexValue? (byte : UInt8) : Option Nat :=
  if isDigit byte then some (digitValue byte)
  else if 0x41 ≤ byte && byte ≤ 0x46 then some (byte.toNat - 0x37)
  else if 0x61 ≤ byte && byte ≤ 0x66 then some (byte.toNat - 0x57)
  else none

/-- The text from its first byte that is no blank. -/
def skipBlanks (text : Bytes) : Bytes := text.dropWhile isBlank

theorem length_skipBlanks_le (text : Bytes) : (skipBlanks text).length ≤ text.length :=
  (List.dropWhile_suffix isBlank).length_le

theorem length_of_skipBlanks {text rest : Bytes} {first : UInt8}
    (blanks : skipBlanks text = first :: rest) : rest.length < text.length := by
  have blanksLe := length_skipBlanks_le text
  rw [blanks] at blanksLe
  exact blanksLe

end RegisterMachine.Json.Mark
