import RegisterMachine.CommandLine
import RegisterMachine.Log.Filter

/-!
Contract: the program in the real world.

Owns: the environment of real files and streams, and `main`.
Does not own: anything that the program decides (`CommandLine`).
-/

namespace RegisterMachine.World

/-- The system's number of an error, which some calls give negated. -/
def hasNumber (code number : UInt32) : Bool := code == number || 0 - code == number

/-- Why the operating system has refused access to a file. -/
def fileError : IO.Error → FileError
  | .noFileOrDirectory _ _ _ => .notFound
  | .inappropriateType _ code _ => if hasNumber code 21 then .isDirectory else .notDirectory
  | .permissionDenied _ _ _ => .other "Permission denied (os error 13)"
  | error => .other (toString error)

/-- Tries to access a file. -/
def attempt {A : Type} (access : IO A) : IO (Except FileError A) := do
  match ← access.toBaseIO with
  | .ok value => return .ok value
  | .error error => return .error (fileError error)

def bytesOf (content : Bytes) : ByteArray := ⟨content.toArray⟩

/-- All bytes that a source still gives. -/
partial def readToEnd (readSome : USize → IO ByteArray) (done : ByteArray) : IO ByteArray := do
  let chunk ← readSome 65536
  if chunk.isEmpty then return done else readToEnd readSome (done ++ chunk)

def writeTo (path : String) (mode : IO.FS.Mode) (content : Bytes) : IO Unit := do
  let handle ← IO.FS.Handle.mk path mode
  handle.write (bytesOf content)
  handle.flush

/-- Overwrites a part of a file that exists, and leaves the rest as it is. -/
def overwrite (path : String) (offset : Nat) (content : ByteArray) : IO Unit := do
  let handle ← IO.FS.Handle.mk path .readWrite
  let old ← readToEnd handle.read .empty
  let gap : ByteArray := ⟨Array.replicate (offset - old.size) 0⟩
  handle.rewind
  handle.write (old.extract 0 offset ++ gap ++ content ++
    old.extract (offset + content.size) old.size)
  handle.flush

def changeFile (path : String) : FileChange → IO Unit
  | .replace content => writeTo path .write content
  | .append content => writeTo path .append content
  | .overwrite offset content =>
      if content.isEmpty then return () else overwrite path offset (bytesOf content)

instance : Environment (ReaderT Log.Filter IO) where
  readFile path := attempt do return (← IO.FS.readBinFile path).toList
  changeFile path change := attempt (changeFile path change)
  input := do return (← readToEnd (← IO.getStdin).read .empty).toList
  print content := do
    let stream ← IO.getStdout
    stream.write (bytesOf content)
    stream.flush
  report text := IO.eprintln text
  record event := do
    if (← read).shows event then
      IO.eprint event.text

/-- More cycles than any run can take. -/
def fuel : Nat := 1000000000000000000

end RegisterMachine.World

open RegisterMachine in
def main (arguments : List String) : IO UInt32 := do
  let filter := Log.Filter.ofWish (← IO.getEnv "RUST_LOG")
  let code ← (CommandLine.serve arguments World.fuel : ReaderT Log.Filter IO Nat).run filter
  return UInt32.ofNat code
