import RegisterMachine.Text.CodeUnits

/-!
Contract: pending input, first in, first out.

Lines are queued whole, each with one line feed at its end, and drained one
code at a time.

Owns: `InputQueue` and its operations.
Does not own: where the lines come from (`Session`).
-/

namespace RegisterMachine

structure InputQueue where
  pending : List Word
deriving DecidableEq, Repr, Inhabited

namespace InputQueue

def empty : InputQueue := ⟨[]⟩

/-- Queues codes as they are. -/
def pushCodes (queue : InputQueue) (codes : List Word) : InputQueue := ⟨queue.pending ++ codes⟩

/-- Queues a line of text; a line end that the text already has is not doubled. -/
def pushLine (queue : InputQueue) (line : String) : InputQueue :=
  queue.pushCodes (Text.lineCodes line)

/-- Queues lines of text in order. -/
def pushLines (queue : InputQueue) (lines : List String) : InputQueue :=
  queue.pushCodes (lines.flatMap Text.lineCodes)

/-- Takes the code that has waited longest. -/
def take? (queue : InputQueue) : Option (Word × InputQueue) :=
  match queue.pending with
  | [] => none
  | code :: rest => some (code, ⟨rest⟩)

/-- Discards everything that waits. -/
def clear (_ : InputQueue) : InputQueue := empty

def size (queue : InputQueue) : Nat := queue.pending.length

def isEmpty (queue : InputQueue) : Bool := queue.pending.isEmpty

@[simp] theorem pending_pushLine (queue : InputQueue) (line : String) :
    (queue.pushLine line).pending = queue.pending ++ Text.lineCodes line := rfl

end InputQueue

end RegisterMachine
