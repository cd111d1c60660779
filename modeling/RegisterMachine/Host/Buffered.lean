import RegisterMachine.Host
import RegisterMachine.Host.InputQueue

/-!
Contract: a host that keeps everything in memory.

Input is a queue, output and trace are lists that only grow. Tracing can be
left off, in which case events are dropped.

Owns: `BufferedHost`.
Does not own: the host of a session (`Session.Console`).
-/

namespace RegisterMachine

structure BufferedHost where
  input : InputQueue
  /-- The printed codes in order. -/
  output : Array Word
  /-- The observed events in order. -/
  trace : Array TraceEvent
  recordTrace : Bool
deriving DecidableEq, Repr

namespace BufferedHost

/-- The host without input, output and events. -/
def start (recordTrace : Bool) : BufferedHost := ⟨.empty, #[], #[], recordTrace⟩

instance : Host BufferedHost where
  emit host code := { host with output := host.output.push code }
  take? host := host.input.take?.map fun (code, rest) => (code, { host with input := rest })
  observe host event :=
    if host.recordTrace then { host with trace := host.trace.push event } else host

/-- The printed text, with U+FFFD for each code that is no character. -/
def outputText (host : BufferedHost) : String := String.ofList (host.output.toList.map Word.char)

end BufferedHost

end RegisterMachine
