import RegisterMachine.Engine

/-!
Contract: the state of an engine as lines of text.

The view shows the program counter with the cell it points to, the result with
the reason of a halt, every register, and the stack from bottom to top.

Owns: the text of the view.
Does not own: memory, which `Listing` shows.
-/

namespace RegisterMachine

namespace MachineView

def pcLine (machine : Machine) : String :=
  match machine.pc with
  | some pc => s!"pc: {pc} -> " ++ Opcode.describeCell (machine.read pc)
  | none => "pc: halted"

def resultLine (engine : Engine) : String :=
  s!"result: {engine.result.toNat}" ++
    (match engine.haltReason? with
      | some reason => " (" ++ reason.message ++ ")"
      | none => "")

def registerLine (machine : Machine) (register : Register) : String :=
  s!"{register.name}: {(machine.register register).toNat}"

def stackLine (machine : Machine) : String :=
  s!"stack ({machine.stack.length}): " ++
    " ".intercalate (machine.stack.reverse.map fun value => toString value.toNat)

/-- All lines of the view. -/
def lines (engine : Engine) : List String :=
  [pcLine engine.machine, resultLine engine] ++
    Register.all.map (registerLine engine.machine) ++ [stackLine engine.machine]

/-- The view with an end after every line. -/
def text (engine : Engine) : String := String.join ((lines engine).map (· ++ "\n"))

end MachineView

end RegisterMachine
