import RegisterMachine.Host.Buffered
import RegisterMachine.Listing
import RegisterMachine.Text.Utf8

/-!
Contract: the host of a session.

A console keeps a record of everything that is printed and observed, and passes
what is printed on to a sink, which may have room for so many bytes only. A
character that does not fit is refused as a whole; the first refusal is
remembered, and shorter characters may fit later.

Owns: `Sink`, `Entry`, `Console`.
Does not own: the files that the record goes to (`Session.Outbox`).
-/

namespace RegisterMachine.Session

/-- A place for a limited number of bytes. -/
structure Sink where
  room : Option Nat
  kept : Array UInt8
  /-- How many bytes were kept when bytes were refused for the first time. -/
  refusedAt : Option Nat
deriving DecidableEq, Repr

namespace Sink

def empty (room : Option Nat) : Sink := ⟨room, #[], none⟩

/-- This many more bytes fit. -/
def fits (sink : Sink) (count : Nat) : Bool :=
  match sink.room with
  | some room => decide (sink.kept.size + count ≤ room)
  | none => true

/-- Keeps all of some bytes or none of them. -/
def write (sink : Sink) (bytes : Bytes) : Sink :=
  if sink.fits bytes.length then
    match sink with
    | ⟨room, kept, refusedAt⟩ => ⟨room, kept ++ bytes, refusedAt⟩
  else
    { sink with refusedAt := sink.refusedAt.orElse fun _ => some sink.kept.size }

end Sink

/-- The UTF-8 form of the character that a code prints. -/
def encodeWord (code : Word) : Bytes := String.utf8EncodeChar code.char

/-- One thing that happened to a console. -/
inductive Entry where
  | printed (code : Word)
  | observed (event : TraceEvent)
deriving DecidableEq, Repr

namespace Entry

def printed? : Entry → Option Word
  | .printed code => some code
  | .observed _ => none

def observed? : Entry → Option TraceEvent
  | .printed _ => none
  | .observed event => some event

end Entry

structure Console where
  input : InputQueue
  /-- What was printed and observed, in order. -/
  record : Array Entry
  /-- Observed events are recorded. -/
  recordTrace : Bool
  sink : Sink
  /-- The last observed event that a breakpoint caused. -/
  hit : Option TraceEvent
deriving DecidableEq, Repr

namespace Console

/-- A console with queued input. -/
def start (input : InputQueue) (recordTrace : Bool) (room : Option Nat) : Console :=
  ⟨input, #[], recordTrace, .empty room, none⟩

instance : Host Console where
  emit console code :=
    match console with
    | ⟨input, record, recordTrace, sink, hit⟩ =>
        ⟨input, record.push (.printed code), recordTrace, sink.write (encodeWord code), hit⟩
  take? console :=
    match console with
    | ⟨input, record, recordTrace, sink, hit⟩ =>
        match input.take? with
        | some (code, input) => some (code, ⟨input, record, recordTrace, sink, hit⟩)
        | none => none
  observe console event :=
    match console with
    | ⟨input, record, recordTrace, sink, hit⟩ =>
        ⟨input, if recordTrace then record.push (.observed event) else record, recordTrace, sink,
          if event.breaking then some event else hit⟩

/-! ## The console as a buffered host -/

/-- What the console has in common with a host that keeps output and trace apart. -/
def buffered (console : Console) : BufferedHost :=
  ⟨console.input, console.record.filterMap Entry.printed?,
    console.record.filterMap Entry.observed?, console.recordTrace⟩

@[simp] theorem buffered_start (input : InputQueue) (recordTrace : Bool) (room : Option Nat) :
    (start input recordTrace room).buffered =
      { BufferedHost.start recordTrace with input } := by
  simp [start, buffered, BufferedHost.start]

@[simp] theorem buffered_emit (console : Console) (code : Word) :
    (Host.emit console code).buffered = Host.emit console.buffered code := by
  simp [Host.emit, buffered, Entry.printed?, Entry.observed?, Array.filterMap_push]

@[simp] theorem buffered_observe (console : Console) (event : TraceEvent) :
    (Host.observe console event).buffered = Host.observe console.buffered event := by
  obtain ⟨input, record, recordTrace, sink, hit⟩ := console
  cases recordTrace <;>
    simp [Host.observe, buffered, Entry.printed?, Entry.observed?, Array.filterMap_push]

end Console

end RegisterMachine.Session
