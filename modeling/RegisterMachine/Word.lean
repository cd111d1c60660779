/-!
Contract: the unit of storage and its byte form.

A word is sixteen bits wide. A program image holds each word as two bytes, the
low byte first.

Owns: `Word`, `Bytes`, the byte pair of a word and the character of a word.
Does not own: what a word means as an operand (`Operand`).
-/

namespace RegisterMachine

/-- The content of one memory cell, register or stack entry. -/
abbrev Word := UInt16

/-- The content of a file or of a stream. -/
abbrev Bytes := List UInt8

namespace Word

/-- The byte of a word that comes first in an image. -/
def lowByte (word : Word) : UInt8 := UInt8.ofNat (word.toNat % 256)

/-- The byte of a word that comes second in an image. -/
def highByte (word : Word) : UInt8 := UInt8.ofNat (word.toNat / 256)

/-- The word of two consecutive bytes of an image. -/
def ofBytes (low high : UInt8) : Word := UInt16.ofNat (low.toNat + 256 * high.toNat)

theorem ofBytes_lowByte_highByte (word : Word) :
    ofBytes word.lowByte word.highByte = word := by
  have bound := word.toNat_lt
  apply UInt16.toNat_inj.mp
  simp only [ofBytes, lowByte, highByte, UInt16.toNat_ofNat', UInt8.toNat_ofNat']
  omega

theorem lowByte_ofBytes (low high : UInt8) : lowByte (ofBytes low high) = low := by
  have lowBound := low.toNat_lt
  have highBound := high.toNat_lt
  apply UInt8.toNat_inj.mp
  simp only [ofBytes, lowByte, UInt16.toNat_ofNat', UInt8.toNat_ofNat']
  omega

theorem highByte_ofBytes (low high : UInt8) : highByte (ofBytes low high) = high := by
  have lowBound := low.toNat_lt
  have highBound := high.toNat_lt
  apply UInt8.toNat_inj.mp
  simp only [ofBytes, highByte, UInt16.toNat_ofNat', UInt8.toNat_ofNat']
  omega

/-- The character with this code. The codes 55296 to 57343 belong to no character. -/
def char? (word : Word) : Option Char :=
  if valid : word.toNat.isValidChar then some (Char.ofNatAux word.toNat valid) else none

/-- The character that is printed for this code: U+FFFD where the code belongs to none. -/
def char (word : Word) : Char := word.char?.getD '\ufffd'

end Word

end RegisterMachine
