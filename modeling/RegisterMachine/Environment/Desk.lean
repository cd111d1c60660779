import RegisterMachine.Environment
import RegisterMachine.Log.Filter

/-!
Contract: a world in memory.

A desk has a directory of files, the text that the user has typed, the output
so far, and a journal of the messages and records in their order.

Owns: `Desk`, its environment, and what its user sees.
Does not own: the rules for files (`Files`).
-/

namespace RegisterMachine

/-- An entry of a journal. -/
inductive Notice where
  | message (text : String)
  | event (recorded : Log.Event)
deriving DecidableEq, Repr

structure Desk where
  files : Files
  input : Bytes
  output : Bytes
  journal : List Notice
deriving DecidableEq, Repr

namespace Desk

/-- A desk at which nothing has happened yet. -/
def start (files : Files) (input : Bytes) : Desk := ⟨files, input, [], []⟩

/-- Changes a file of the desk. -/
def changeFile (desk : Desk) (path : String) (change : FileChange) :
    Except FileError Unit × Desk :=
  match desk.files.modify path change.apply with
  | .ok files => (.ok (), { desk with files })
  | .error error => (.error error, desk)

def note (desk : Desk) (notice : Notice) : Desk :=
  { desk with journal := desk.journal ++ [notice] }

instance : Environment (StateM Desk) where
  readFile path := do return (← get).files.read path
  changeFile path change := modifyGet fun desk => desk.changeFile path change
  input := do return (← get).input
  print bytes := modify fun desk => { desk with output := desk.output ++ bytes }
  report text := modify fun desk => desk.note (.message text)
  record event := modify fun desk => desk.note (.event event)

/-- The recorded events in order. -/
def events (desk : Desk) : List Log.Event :=
  desk.journal.filterMap fun
    | .message _ => none
    | .event recorded => some recorded

end Desk

/-- The text that a notice is shown as: a message with its line end, and a record that the filter
shows. -/
def Notice.text (filter : Log.Filter) : Notice → String
  | .message text => text ++ "\n"
  | .event recorded => if filter.shows recorded then recorded.text else ""

/-- The text that the user sees beside the output. -/
def Desk.userText (desk : Desk) (filter : Log.Filter) : String :=
  String.join (desk.journal.map (Notice.text filter))

end RegisterMachine
