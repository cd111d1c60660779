import RegisterMachine.Arguments
import RegisterMachine.Listing.MachineView
import RegisterMachine.Session

/-!
Contract: what the command line does and what it answers.

Output goes to the standard output; reports, errors and records go to the
user. The exit code of a run is that of its report; a failure has a code of
its own.

Owns: the help text, the commands and their exit codes.
Does not own: the grammar of arguments (`Arguments`) and sessions (`Session`).
-/

namespace RegisterMachine.CommandLine

def helpLines : List String :=
  ["Usage: synacor-dbg <command> [options]",
    "",
    "Commands:",
    "  run  <program> [options]            Run until halt, suspension or step limit",
    "  dump <program> [START [END]]        Disassemble memory",
    "  show <program>                      Print pc, registers and stack",
    "",
    "Run options:",
    "  --state <file>       Restore a saved snapshot before running",
    "  --input <file>       Queue each line of <file> as input",
    "  --send <text>        Queue one input line (repeatable)",
    "  --stdin              Queue every line of standard input",
    "  --break <addr>       Set a breakpoint (repeatable)",
    "  --continue           Step over a breakpoint at the current pc first",
    "  --max-steps <n>      Stop after <n> instructions",
    "  --trace <file>       Write one trace line per fetched instruction",
    "  --log <file>         Append machine output to <file>",
    "  --save <file>        Save a snapshot when the run stops",
    "  --no-trace           Disable trace dispatch",
    "",
    "Dump/show options:",
    "  --state <file>       Inspect a saved snapshot instead of the fresh program",
    "  --all                Include cells that are not instructions (dump only)",
    "  -h, --help           Show this help message",
    "",
    "Addresses and counts accept decimal or 0x-prefixed hex.",
    "",
    "Examples:",
    "  synacor-dbg run challenge.bin --send 'take tablet' --save after.json",
    "  synacor-dbg run challenge.bin --state after.json --break 0x1234",
    "  synacor-dbg dump challenge.bin 0 64 --all"]

/-- The help, each line with its end. -/
def helpText : String := String.join (helpLines.map (· ++ "\n"))

/-- The exit code of failures. -/
def failureCode : Nat := 2

def refusalMessage : Arguments.Refusal → String
  | .helpWanted => helpText
  | .missingCommand => "missing command"
  | .unknownCommand name => "unknown command: " ++ name
  | .missingValue flag => "missing value for " ++ flag
  | .unknownOption flag => "unknown option: " ++ flag
  | .severalPrograms => "multiple program paths provided"
  | .missingProgram => "missing program path"
  | .unexpected argument => "unexpected argument: " ++ argument
  | .invalidNumber invalid => invalid.message

variable {m : Type → Type} [Monad m] [Environment m]

def printText (text : String) : m Unit := Environment.print (Text.encode text)

/-! ## Commands -/

/-- Runs a session and reports how it ended. -/
def run (plan : Session.Plan) (fuel : Nat) : ExceptT Session.Error m Nat := do
  let report ← ExceptT.mk (Session.run plan none fuel)
  (Environment.report report.text : m Unit)
  return report.exitCode

/-- Lists memory. -/
def dump (request : Arguments.DumpRequest) : ExceptT Session.Error m Nat := do
  let engine ← Session.load request.program request.state .standard
  let memory := engine.machine.memory
  let rows := Listing.rows memory request.start (request.stop.getD memory.size)
    request.includeData
  (printText (Listing.text rows) : m Unit)
  (Environment.record (.rowsListed rows.length) : m Unit)
  return 0

/-- Shows registers and stack. -/
def view (request : Arguments.ShowRequest) : ExceptT Session.Error m Nat := do
  let engine ← Session.load request.program request.state .standard
  (printText (MachineView.text engine) : m Unit)
  return 0

def perform (command : Arguments.Command) (fuel : Nat) : ExceptT Session.Error m Nat :=
  match command with
  | .run plan => run plan fuel
  | .dump request => dump request
  | .view request => view request

/-! ## Answers -/

/-- Shows the help to a user who has asked for it, and an error with the help to any other. -/
def refuse (refusal : Arguments.Refusal) : m Nat := do
  match refusal with
  | .helpWanted =>
      printText (refusalMessage refusal ++ "\n")
      return 0
  | _ =>
      Environment.report ("error: " ++ refusalMessage refusal)
      Environment.report helpText
      return failureCode

/-- Does what the arguments ask for and gives the exit code. -/
def serve (arguments : List String) (fuel : Nat) : m Nat := do
  match Arguments.read arguments with
  | .error refusal => refuse refusal
  | .ok command =>
      match ← (perform command fuel).run with
      | .ok code => return code
      | .error error =>
          Environment.report ("error: " ++ error.message)
          return failureCode

end RegisterMachine.CommandLine
