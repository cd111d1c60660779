import RegisterMachine.Environment
import RegisterMachine.Session.Error
import RegisterMachine.Session.Outbox
import RegisterMachine.Session.Plan
import RegisterMachine.Session.Report
import RegisterMachine.Snapshot.Printer
import RegisterMachine.Snapshot.Reader
import RegisterMachine.Text.Lines

/-!
Contract: one batch session from loading a program to its report.

A session loads, prepares its files, queues all input, runs the machine once,
saves it and completes its log and trace. Files are opened for writing before
input is read; what their buffers pass on while the machine runs precedes the
snapshot, which shows if it goes to one of them. The first failure ends the
session; one that arises after the run leaves log and trace complete all the
same.

Owns: the phases of a session and their order.
Does not own: what a run does (`Engine`) and where files are (`Environment`).
-/

namespace RegisterMachine.Session

variable {m : Type → Type} [Monad m] [Environment m]

/-! ## Access to files -/

/-- The content of a file that the session needs. -/
def readFile (path : String) : ExceptT Error m Bytes := do
  match ← (Environment.readFile path : m _) with
  | .ok content => return content
  | .error error => throw (.file path error)

/-- Changes a file that the session needs. -/
def changeFile (path : String) (change : FileChange) : ExceptT Error m Unit := do
  match ← (Environment.changeFile path change : m _) with
  | .ok () => return ()
  | .error error => throw (.file path error)

def recordAll (events : List Log.Event) : ExceptT Error m Unit :=
  (Environment.recordAll events : m Unit)

/-- Text that came from a place of this name. -/
def decodeText (place : String) (content : Bytes) : Except Error String :=
  match RegisterMachine.decodeText content with
  | .ok text => .ok text
  | .error error => .error (.file place error)

/-! ## Loading -/

/-- The machine that a snapshot file holds. -/
def readSnapshot (path : String) : ExceptT Error m Machine := do
  let decoded := Snapshot.decode (← readFile path)
  recordAll (Log.ofDecoded decoded)
  match decoded with
  | .ok machine => return machine
  | .error error => throw (.snapshot path error)

/-- An engine with a program, and with the machine of a snapshot in its place if there is one. -/
def load (program : String) (state : Option String) (config : EngineConfig) :
    ExceptT Error m Engine := do
  let image ← readFile program
  let memory := Memory.ofBytes image
  recordAll (Log.ofImage image memory ++ [.programLoaded program memory.size])
  let engine := Engine.fresh memory config
  match state with
  | none => return engine
  | some path =>
      let machine ← readSnapshot path
      recordAll [.stateRestored path]
      return engine.restore machine

/-! ## Preparing -/

def Plan.engineConfig (plan : Plan) : EngineConfig := ⟨!plan.disableTrace, plan.stepLimit⟩

/-- Sets breakpoints. -/
def setBreakpoints (engine : Engine) (addresses : List Nat) : Engine :=
  addresses.foldl (fun engine address => (engine.addBreakpoint address).2) engine

/-- Creates the log file if it is absent, and empties the trace file. -/
def openFiles (plan : Plan) : ExceptT Error m Unit := do
  match plan.log with
  | some path => changeFile path (.append [])
  | none => pure ()
  match plan.trace with
  | some path => changeFile path (.replace [])
  | none => pure ()

/-- The lines of an input file that are queued. -/
def fileLines (text : String) : List String := (Text.lines text).filter fun line => !line.isEmpty

/-- The lines that are queued from the input file. -/
def linesOfFile (path : Option String) : ExceptT Error m (List String) := do
  match path with
  | none => return []
  | some path =>
      let text ← decodeText path (← readFile path)
      return fileLines text

/-- The lines that the user types. -/
def typedLines (wanted : Bool) : ExceptT Error m (List String) := do
  if wanted then
    let text ← decodeText "<stdin>" (← (Environment.input : m Bytes))
    return Text.lines text
  else
    return []

/-- All input of a session. -/
def queueInput (plan : Plan) : ExceptT Error m InputQueue := do
  let fromFile ← linesOfFile plan.input
  let typed ← typedLines plan.readInput
  return InputQueue.empty.pushLines (fromFile ++ plan.send ++ typed)

/-- The engine and the input of a session before its run. -/
def prepare (plan : Plan) : ExceptT Error m (Engine × InputQueue) := do
  let engine ← load plan.program plan.state plan.engineConfig
  openFiles plan
  let input ← queueInput plan
  recordAll [.inputQueued input.size]
  return (setBreakpoints engine plan.breakpoints, input)

/-! ## Running -/

/-- A run that may begin with one step that ignores breakpoints. -/
def drive {H : Type} [Host H] (engine : Engine) (host : H) (bypass : Bool) (fuel : Nat) : Run H :=
  if bypass then
    match engine.step host 0 with
    | ⟨.completed, engine, host⟩ =>
        let rest := engine.run host fuel
        { rest with steps := rest.steps + 1 }
    | ⟨stop, engine, host⟩ => ⟨some stop, 0, engine, host⟩
  else
    engine.run host fuel

/-! ## Concluding -/

/-- Saves a machine, if a file is given. -/
def save (machine : Machine) (path : Option String) : ExceptT Error m Unit := do
  match path with
  | none => return ()
  | some path =>
      recordAll (Log.ofEncoded machine)
      changeFile path (.replace (Snapshot.encode machine))
      recordAll [.stateSaved path]

/-- The file of a target, if one is given. -/
def Plan.file? (plan : Plan) : Target → Option String
  | .log => plan.log
  | .trace => plan.trace

/-- The entries of a record that are written to a file. -/
def Plan.written (plan : Plan) (record : Array Entry) : Array Entry :=
  record.filter fun entry => (plan.file? entry.target).isSome

/-- Changes the file of a target, which has been opened before. -/
def writeOpened (plan : Plan) (target : Target) (change : FileChange) :
    m (Except OutputError Unit) := do
  match plan.file? target with
  | none => return .ok ()
  | some path =>
      match ← (Environment.changeFile path change : m _) with
      | .ok () => return .ok ()
      | .error error => return .error (.file error)

/-- Makes changes in their order, whether or not an earlier one fails. -/
def writeAll (plan : Plan) : List (Target × FileChange) → m (List (Except OutputError Unit))
  | [] => return []
  | (target, change) :: rest => do
      let first ← writeOpened plan target change
      let others ← writeAll plan rest
      return first :: others

/-- What the sink of a console has refused. -/
def Console.refusal (console : Console) : Except OutputError Unit :=
  match console.sink.refusedAt with
  | some kept => .error (.sinkFull kept)
  | none => .ok ()

/-- The trace line of the breakpoint that stopped a run. -/
def breakpointLine (stop : Outcome) (console : Console) : Option String :=
  match stop with
  | .suspended (.breakpoint _) => console.hit.map Listing.traceLine
  | _ => none

/-- The report on a run that ended with this outcome. -/
def reportOf (stop : Outcome) (run : Run Console) : Report :=
  ⟨stop, run.steps, run.engine.result, run.engine.machine.pc, breakpointLine stop run.host⟩

/-- The report on a run, unless the run or what followed it has failed. -/
def settle (run : Run Console) (saved : Except Error Unit)
    (written : List (Except OutputError Unit)) : Except Error Report :=
  match run.outcome?, saved, written.find? fun attempt => !attempt.isOk with
  | none, _, _ => .error .unfinished
  | some _, .error error, _ => .error error
  | some _, .ok (), some (.error error) => .error (.output error)
  | some stop, .ok (), _ => .ok (reportOf stop run)

/-- Prints, saves and writes what a run has left. -/
def conclude (plan : Plan) (run : Run Console) : m (Except Error Report) := do
  let console := run.host
  let outbox := Outbox.ofRecord (plan.written console.record)
  Environment.print console.sink.kept.toList
  let during ← writeAll plan outbox.changesDuring
  let saved ← (save run.engine.machine plan.save).run
  let after ← writeAll plan outbox.changesAfter
  return settle run saved (console.refusal :: (during ++ after))

/-- Runs a session whose output has so much room, in at most as many cycles as there is fuel. -/
def run (plan : Plan) (room : Option Nat) (fuel : Nat) : m (Except Error Report) := do
  match ← (prepare plan).run with
  | .error error => return .error error
  | .ok (engine, input) =>
      let console := Console.start input plan.trace.isSome room
      conclude plan (drive engine console plan.bypasses fuel)

end RegisterMachine.Session
