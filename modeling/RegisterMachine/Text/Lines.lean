/-!
Contract: the lines of a text file.

A line ends at a line feed or at a carriage return followed by a line feed. The
last line may lack its end; a carriage return that no line feed follows belongs
to the line.

Owns: splitting into lines.
Does not own: what becomes of a line (`Text.lineCodes`).
-/

namespace RegisterMachine.Text

/-- Drops one carriage return at the end of a line whose line feed has been removed. -/
def dropReturn (line : List Char) : List Char :=
  if line.getLast? = some '\r' then line.dropLast else line

/-- The lines of a text, where `line` holds the characters of the current line in reverse. -/
def linesFrom (line : List Char) (done : Array (List Char)) : List Char → Array (List Char)
  | [] => if line.isEmpty then done else done.push line.reverse
  | '\n' :: rest => linesFrom [] (done.push (dropReturn line.reverse)) rest
  | character :: rest => linesFrom (character :: line) done rest

/-- The lines of a text, without their ends. -/
def lines (text : String) : List String :=
  ((linesFrom [] #[] text.toList).toList).map String.ofList

end RegisterMachine.Text
