import RegisterMachine.Text.Unprintable

/-!
Contract: characters and strings between quotes.

Inside quotes, a quote of the same kind and a backslash follow a backslash, the
usual control characters have a letter, and other unprintable characters are
given by their hexadecimal code. Every other character stands for itself.

Owns: the quoted form of a character and of a string.
Does not own: the set of unprintable characters (`Text.Unprintable`).
-/

namespace RegisterMachine.Text

/-- The hexadecimal code of a character in braces. -/
def codeEscape (character : Char) : List Char :=
  ['\\', 'u', '\x7b'] ++ Nat.toDigits 16 character.toNat ++ ['\x7d']

/-- A character as it stands between two quotes of the given kind. -/
def escaped (quote character : Char) : List Char :=
  if character = '\x00' then ['\\', '0']
  else if character = '\t' then ['\\', 't']
  else if character = '\r' then ['\\', 'r']
  else if character = '\n' then ['\\', 'n']
  else if character = '\\' ∨ character = quote then ['\\', character]
  else if isUnprintable character then codeEscape character
  else [character]

/-- A character between single quotes. -/
def quotedChar (character : Char) : String :=
  String.ofList (['\x27'] ++ escaped '\x27' character ++ ['\x27'])

/-- A string between double quotes. -/
def quotedString (text : String) : String :=
  String.ofList (['\x22'] ++ text.toList.flatMap (escaped '\x22') ++ ['\x22'])

end RegisterMachine.Text
