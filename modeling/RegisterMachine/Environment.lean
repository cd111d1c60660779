import RegisterMachine.Files
import RegisterMachine.Log

/-!
Contract: what a session needs from the world around it.

Files are named by paths; output goes to one place, messages for the user and
records to another. Nothing here can fail but access to files.

Owns: the class `Environment`.
Does not own: the world in memory (`Desk`) and the real one (`Main`).
-/

namespace RegisterMachine

class Environment (m : Type → Type) where
  readFile : (path : String) → m (Except FileError Bytes)
  /-- Changes a file, which is created if it does not exist. -/
  changeFile : (path : String) → FileChange → m (Except FileError Unit)
  /-- All that the user has typed. -/
  input : m Bytes
  /-- Adds to the output. -/
  print : Bytes → m Unit
  /-- Shows a message to the user. -/
  report : String → m Unit
  record : Log.Event → m Unit

namespace Environment

variable {m : Type → Type} [Monad m] [Environment m]

def recordAll : List Log.Event → m Unit
  | [] => pure ()
  | event :: rest => do
      record event
      recordAll rest

end Environment

end RegisterMachine
