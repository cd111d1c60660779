import RegisterMachine.Snapshot
import RegisterMachine.Text.ControlSequence

/-!
Contract: what is recorded for the user who looks into a session.

Each event has a level and a source. Whether its record is shown is decided
later, by a filter. A record that is shown must not disturb the user's
terminal, whatever the names of files in it.

Owns: `Level`, `Event` with its level, source and message, and the text of a record.
Does not own: when events happen, and filters (`Log.Filter`).
-/

namespace RegisterMachine.Log

/-- How urgent a record is. -/
inductive Level where
  | error
  | warn
  | info
  | debug
  | trace
deriving DecidableEq, Repr

namespace Level

/-- The most urgent level comes first. -/
def all : List Level := [.error, .warn, .info, .debug, .trace]

/-- The number of levels that are at least as urgent. -/
def rank : Level → Nat
  | .error => 1
  | .warn => 2
  | .info => 3
  | .debug => 4
  | .trace => 5

def name : Level → String
  | .error => "ERROR"
  | .warn => "WARN"
  | .info => "INFO"
  | .debug => "DEBUG"
  | .trace => "TRACE"

end Level

/-- The part of the program that an event belongs to. -/
inductive Source where
  | memory
  | snapshot
  | session
  | commandLine
deriving DecidableEq, Repr

/-- The name by which filters and lines refer to a source. -/
def Source.name : Source → String
  | .memory => "vm_core::memory"
  | .snapshot => "vm_core::snapshot"
  | .session => "debugger::session"
  | .commandLine => "synacor_dbg"

inductive Event where
  /-- A program image has a last byte that is no word. -/
  | oddImage (length : Nat)
  | imageDecoded (cells : Nat)
  | versionRejected (version : Word)
  | snapshotDecoded (cells : Nat) (pc : Option Nat)
  | snapshotEncoded (version : Word) (cells stackSize : Nat)
  | programLoaded (path : String) (cells : Nat)
  | stateRestored (path : String)
  | stateSaved (path : String)
  | inputQueued (codes : Nat)
  | rowsListed (rows : Nat)
deriving DecidableEq, Repr

namespace Event

def level : Event → Level
  | .oddImage _ | .versionRejected _ => .warn
  | .programLoaded _ _ | .stateRestored _ | .stateSaved _ => .info
  | .imageDecoded _ | .snapshotDecoded _ _ | .snapshotEncoded _ _ _ | .inputQueued _
  | .rowsListed _ => .debug

def source : Event → Source
  | .oddImage _ | .imageDecoded _ => .memory
  | .versionRejected _ | .snapshotDecoded _ _ | .snapshotEncoded _ _ _ => .snapshot
  | .programLoaded _ _ | .stateRestored _ | .stateSaved _ | .inputQueued _ => .session
  | .rowsListed _ => .commandLine

/-- The text of a program counter in a message. -/
def counterText : Option Nat → String
  | some address => s!"Some({address})"
  | none => "None"

def message : Event → String
  | .oddImage length => s!"program image has odd length {length}, ignoring trailing byte"
  | .imageDecoded cells => s!"decoded program image: {cells} cells"
  | .versionRejected version => s!"rejecting snapshot with version {version.toNat}"
  | .snapshotDecoded cells pc => s!"decoded snapshot: {cells} cells, pc " ++ counterText pc
  | .snapshotEncoded version cells stackSize =>
      s!"encoded snapshot v{version.toNat}: {cells} cells, {stackSize} stack entries"
  | .programLoaded path cells => "loaded " ++ path ++ s!" ({cells} cells)"
  | .stateRestored path => "restored state from " ++ path
  | .stateSaved path => "saved state to " ++ path
  | .inputQueued codes => s!"{codes} input codes queued"
  | .rowsListed rows => s!"dumped {rows} rows"

/-- The message with each line after the first one moved in by four blanks. -/
def indented (message : String) : String :=
  String.ofList (message.toList.flatMap fun character =>
    if character = '\n' then "\n    ".toList else [character])

/-- The text that shows an event, with the level in five columns. A control sequence that a
message leaves open goes on to the end of the text, its line end included. -/
def text (event : Event) : String :=
  Text.stripControls ("[" ++ String.ofList (event.level.name.toList.rightpad 5 ' ') ++ " " ++
    event.source.name ++ "] " ++ indented event.message ++ "\n")

end Event

/-- What happens when a memory is decoded from an image. -/
def ofImage (image : Bytes) (memory : Memory) : List Event :=
  (if image.length % 2 = 1 then [.oddImage image.length] else []) ++ [.imageDecoded memory.size]

/-- What happens when a machine is encoded. -/
def ofEncoded (machine : Machine) : List Event :=
  [.snapshotEncoded Snapshot.version machine.memory.size machine.stack.length]

/-- What happens when a snapshot is decoded with this result. -/
def ofDecoded : Except SnapshotError Machine → List Event
  | .ok machine => [.snapshotDecoded machine.memory.size machine.pc]
  | .error (.unsupportedVersion version) => [.versionRejected version]
  | .error (.malformed _) => []

end RegisterMachine.Log
