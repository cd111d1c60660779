import RegisterMachine.Instruction

/-!
Contract: what a running machine needs from its surroundings.

A host takes the codes that a program prints, hands out the codes that it
reads, and is told of every fetched instruction.

Owns: `TraceEvent`, the class `Host`.
Does not own: particular hosts (`BufferedHost`, `Session.Console`).
-/

namespace RegisterMachine

/-- One fetched instruction, as it stood before it had any effect. -/
structure TraceEvent where
  instruction : Instruction
  registers : RegisterFile
  /-- A breakpoint kept the instruction from being executed. -/
  breaking : Bool
deriving DecidableEq, Repr

class Host (H : Type) where
  /-- Prints one code. -/
  emit : H → Word → H
  /-- Takes the next input code, if one is waiting. -/
  take? : H → Option (Word × H)
  /-- Learns of a fetched instruction. -/
  observe : H → TraceEvent → H

end RegisterMachine
