import RegisterMachine.Json.Mark
import RegisterMachine.Snapshot

/-!
Contract: the text of a snapshot as it is written.

The text is a JSON record without blanks. Its members are the version, memory,
program counter, registers, stack and result, in this order; the stack is
written from bottom to top, and null stands for the program counter of a halted
machine.

Owns: `Snapshot.encode` and the text of its parts.
Does not own: reading, which accepts more texts (`Snapshot.Reader`).
-/

namespace RegisterMachine.Snapshot

open Json.Mark

/-- The decimal digits of a number. -/
def ofNatural (value : Nat) : Bytes := (Nat.toDigits 10 value).map letter

def ofWord (value : Word) : Bytes := ofNatural value.toNat

/-- The elements of a list after its first one, each with a comma before it. -/
def ofTail (words : List Word) : Bytes := words.flatMap fun value => comma :: ofWord value

/-- The elements of a list, separated by commas. -/
def ofElements : List Word → Bytes
  | [] => []
  | first :: rest => ofWord first ++ ofTail rest

def ofWords (words : List Word) : Bytes :=
  openBracket :: (ofElements words ++ [closeBracket])

def ofCounter : Option Nat → Bytes
  | some address => ofNatural address
  | none => ascii "null"

/-- A member of a record. -/
def ofMember (key : String) (value : Bytes) : Bytes :=
  quote :: (ascii key ++ quote :: colon :: value)

/-- The members of a snapshot in the order in which they are written. -/
def members (machine : Machine) : List Bytes :=
  [ofMember "version" (ofWord version),
    ofMember "memory" (ofWords machine.memory.toList),
    ofMember "pc" (ofCounter machine.pc),
    ofMember "registers" (ofWords machine.registers.toList),
    ofMember "stack" (ofWords machine.stack.reverse),
    ofMember "result" (ofWord machine.result)]

/-- The text of a snapshot of a machine. -/
def encode (machine : Machine) : Bytes :=
  openBrace :: ([comma].intercalate (members machine) ++ [closeBrace])

end RegisterMachine.Snapshot
