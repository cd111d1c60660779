import RegisterMachine.Word

/-!
Contract: bytes on their way to a file.

A file that is written in many small pieces is written through a buffer. A
piece that no longer fits empties the buffer first, so the file receives whole
pieces only, and the buffer always keeps the last piece.

Owns: `WriteBuffer` and what it passes on.
Does not own: the files (`Files`) and the pieces (`Session.Outbox`).
-/

namespace RegisterMachine

/-- The bytes that have been written and not yet passed on. -/
structure WriteBuffer where
  held : Array UInt8
deriving DecidableEq, Repr

namespace WriteBuffer

/-- The most bytes that are held while more are written. -/
def capacity : Nat := 8192

def empty : WriteBuffer := ⟨#[]⟩

/-- A piece fits beside what is held. -/
def fits (buffer : WriteBuffer) (piece : Bytes) : Bool :=
  decide (buffer.held.size + piece.length ≤ capacity)

/-- Adds a piece that fits. -/
def add (buffer : WriteBuffer) (piece : Bytes) : WriteBuffer :=
  match buffer with
  | ⟨held⟩ => ⟨held ++ piece⟩

/-- Writes a piece: what is passed on for it, and the buffer with the piece. -/
def write (buffer : WriteBuffer) (piece : Bytes) : Array UInt8 × WriteBuffer :=
  if buffer.fits piece then (#[], buffer.add piece) else (buffer.held, empty.add piece)

/-- No byte is lost or moved. -/
theorem passed_append_held (buffer : WriteBuffer) (piece : Bytes) :
    (buffer.write piece).1.toList ++ (buffer.write piece).2.held.toList =
      buffer.held.toList ++ piece := by
  unfold write
  split <;> simp [add, empty]

end WriteBuffer

end RegisterMachine
