import RegisterMachine.Host
import RegisterMachine.Text.Quoted

/-!
Contract: memory and executed instructions as lines of text.

A line has the address right-aligned in eight columns, the mnemonic in six, and
the operands. Registers stand in braces, with their value where it is known;
what `out` prints is shown as a quoted character.

Owns: operand text, listing rows and the walk over memory, trace lines and the
pieces in which they are written.
Does not own: the view of registers and stack (`MachineView`).
-/

namespace RegisterMachine

namespace Listing

/-- Pads a text with blanks on the left to the given number of columns. -/
def alignRight (columns : Nat) (text : String) : String :=
  String.ofList (text.toList.leftpad columns ' ')

def addressColumns : Nat := 8

def nameColumns : Nat := 6

/-- The text of a line: address, name and what follows. -/
def line (address : Nat) (name rest : String) : String :=
  alignRight addressColumns (toString address) ++ " | " ++ alignRight nameColumns name ++ " " ++
    rest

def inBraces (text : String) : String := "\x7b" ++ text ++ "\x7d"

/-- The character that an operand of `out` prints, after a colon. -/
def glyph? (opcode : Opcode) (value : Word) : Option String :=
  if opcode = .output then value.char?.map fun character => ":" ++ Text.quotedChar character
  else none

/-- The text of one operand. Without a register file, registers show no value. -/
def operandText (opcode : Opcode) (file? : Option RegisterFile) (operand : Word) : String :=
  match Operand.register? operand with
  | none =>
      match glyph? opcode operand with
      | some glyph => inBraces (toString operand.toNat ++ glyph)
      | none => toString operand.toNat
  | some register =>
      match file? with
      | none => inBraces register.name
      | some file =>
          inBraces (register.name ++ ":" ++ toString (file.get register).toNat ++
            (glyph? opcode (file.get register)).getD "")

/-- The text of operands, separated by commas. -/
def operandsText (opcode : Opcode) (file? : Option RegisterFile) (operands : List Word) :
    String :=
  ", ".intercalate (operands.map (operandText opcode file?))

/-- The line of an instruction. -/
def instructionLine (instruction : Instruction) (file? : Option RegisterFile) : String :=
  line instruction.address instruction.opcode.mnemonic
    (operandsText instruction.opcode file? instruction.operands)

/-- The line that records a fetched instruction. -/
def traceLine (event : TraceEvent) : String :=
  instructionLine event.instruction (some event.registers) ++
    (if event.breaking then " [!!]" else "")

/-! ## Pieces of a trace line -/

/-- The pieces of an aligned text: each blank by itself, and then the text. -/
def alignedPieces (columns : Nat) (text : String) : List String :=
  List.replicate (columns - text.length) " " ++ [text]

theorem join_alignedPieces (columns : Nat) (text : String) :
    String.join (alignedPieces columns text) = alignRight columns text := by
  apply String.toList_inj.mp
  simp [alignedPieces, alignRight, String.toList_join, List.leftpad, List.flatMap_replicate,
    String.length_toList]

/-- The pieces in which the line of an event is written to a file, its end included. -/
def tracePieces (event : TraceEvent) : List String :=
  alignedPieces addressColumns (toString event.instruction.address) ++ " | " ::
    (alignedPieces nameColumns event.instruction.opcode.mnemonic ++
      [" ", operandsText event.instruction.opcode (some event.registers)
        event.instruction.operands, if event.breaking then " [!!]" else "", "\n"])

theorem join_tracePieces (event : TraceEvent) :
    String.join (tracePieces event) = traceLine event ++ "\n" := by
  simp [tracePieces, traceLine, instructionLine, line, String.join_append, String.join_cons,
    join_alignedPieces, String.append_assoc]

/-! ## Rows -/

/-- What a row of a listing shows. -/
inductive Row where
  | instruction (shown : Instruction)
  /-- A cell at which no complete instruction begins. -/
  | data (address : Nat) (value : Word)
deriving DecidableEq, Repr

namespace Row

def address : Row → Nat
  | .instruction shown => shown.address
  | .data address _ => address

/-- The cells that the row shows. -/
def cells : Row → List Word
  | .instruction shown => shown.cells
  | .data _ value => [value]

/-- The number of cells that the row shows. -/
def width : Row → Nat
  | .instruction shown => shown.width
  | .data _ _ => 1

def isInstruction : Row → Bool
  | .instruction _ => true
  | .data _ _ => false

def line : Row → String
  | .instruction shown => instructionLine shown none
  | .data address value => Listing.line address "data" (toString value.toNat)

theorem width_pos (row : Row) : 0 < row.width := by
  cases row with
  | instruction shown => exact Nat.add_pos_left Nat.one_pos _
  | data address value => exact Nat.one_pos

end Row

/-- The row that begins at an address, if memory reaches there. -/
def rowAt? (memory : Memory) (address : Nat) : Option Row :=
  match decode memory address with
  | .instruction shown => some (.instruction shown)
  | .fault _ => some (.data address (memory.read address))
  | .endOfProgram => none

/-- Appends the rows from `address` on that begin before `stop`. -/
def pushRows (memory : Memory) (stop : Nat) (rows : Array Row) (address : Nat) : Array Row :=
  if address < stop then
    match rowAt? memory address with
    | none => rows
    | some row => pushRows memory stop (rows.push row) (address + row.width)
  else
    rows
termination_by stop - address
decreasing_by
  have widthPositive := row.width_pos
  omega

/-- The rows that begin in the range from `start` to before `stop`; without `includeData` those
that show an instruction. -/
def rows (memory : Memory) (start stop : Nat) (includeData : Bool) : List Row :=
  (pushRows memory stop #[] start).toList.filter fun row => includeData || row.isInstruction

/-- The text of a listing, a line for each row. -/
def text (rows : List Row) : String := String.join (rows.map fun row => row.line ++ "\n")

end Listing

end RegisterMachine
