import RegisterMachine.Word

/-!
Contract: text as the codes that a program reads.

A program receives text as UTF-16 code units. A character outside the basic
plane arrives as two units, none of which is the code of a character.

Owns: code units of characters and strings, queued form of a line.
Does not own: the queue (`InputQueue`) and the reverse direction, which goes
one code at a time (`Word.char`).
-/

namespace RegisterMachine.Text

/-- The UTF-16 code units of one character. -/
def unitsOfChar (character : Char) : List Word :=
  if character.toNat < 0x10000 then
    [UInt16.ofNat character.toNat]
  else
    [UInt16.ofNat (0xd800 + (character.toNat - 0x10000) / 0x400),
      UInt16.ofNat (0xdc00 + (character.toNat - 0x10000) % 0x400)]

/-- The UTF-16 code units of a sequence of characters. -/
def units (characters : List Char) : List Word := characters.flatMap unitsOfChar

def isLineEnd (character : Char) : Bool := character == '\r' || character == '\n'

/-- Drops every carriage return and line feed at the end. -/
def trimLineEnds (characters : List Char) : List Char :=
  (characters.reverse.dropWhile isLineEnd).reverse

/-- The code that ends every queued line. -/
def lineFeed : Word := 10

/-- The codes of one line of input: its text without any line end, then a single line feed. -/
def lineCodes (line : String) : List Word := units (trimLineEnds line.toList) ++ [lineFeed]

end RegisterMachine.Text
