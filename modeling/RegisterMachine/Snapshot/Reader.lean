import RegisterMachine.Json.Record
import RegisterMachine.Snapshot

/-!
Contract: the machine that a text describes.

The text is read twice. The first reading finds the version and skips
everything else by syntax alone, so a snapshot of another version is refused as
such, whatever else it holds. The second reading takes all members; members
with other keys are skipped, and an absent program counter is that of a halted
machine. A record may also be written as the list of its members, but since the
first reading wants a list of the version alone, no such list is a snapshot.

Owns: `Snapshot.decode` and the two readings.
Does not own: the grammar of values (`Json`).
-/

namespace RegisterMachine.Snapshot

open Json Json.Mark

/-! ## The first reading -/

/-- Gathers the version and skips all other members. -/
def gatherVersion (found : Option Word) (key : String) : Reader (Option Word) := fun text =>
  if key = "version" then
    match readOnce key found.isSome readWord text with
    | .error failure => .error failure
    | .ok (value, rest) => .ok (some value, rest)
  else
    match skipMember text with
    | .error failure => .error failure
    | .ok rest => .ok (found, rest)

theorem advances_gatherVersion (found : Option Word) (key : String) :
    (gatherVersion found key).Advances := by
  intro text rest value read
  unfold gatherVersion at read
  split at read
  · split at read
    · contradiction
    · next once =>
        cases read
        exact advances_readOnce advances_readWord once
  · split at read
    · contradiction
    · next skipped =>
        cases read
        exact length_of_skipMember skipped

def versionGatherer : Gatherer (Option Word) := ⟨gatherVersion, advances_gatherVersion⟩

/-- How a record is written, with the version found in it. -/
inductive Probe where
  | record (version : Word)
  | list (version : Word)
deriving DecidableEq, Repr

def Probe.version : Probe → Word
  | .record version => version
  | .list version => version

/-- The name under which a failure of the first reading mentions the record. -/
def probeName : String := "VersionProbe"

/-- Reads the version of a record, after its opening brace. -/
def probeRecord : Reader Probe := fun text =>
  match readMembers versionGatherer none true text with
  | .error failure => .error failure
  | .ok (none, _) => .error (.unfit (.missingMember "version"))
  | .ok (some version, rest) => .ok (.record version, rest)

/-- Reads the version that is the only element of a list, after its opening bracket. -/
def probeList : Reader Probe := fun text =>
  match next .list true text with
  | .error failure => .error failure
  | .ok (.finish _) => .error (.unfit (.wrongLength 0 (.members probeName 1)))
  | .ok (.entry inside) =>
      match readWord inside with
      | .error failure => .error failure
      | .ok (version, after) =>
          match closeList after with
          | .error failure => .error failure
          | .ok rest => .ok (.list version, rest)

/-- Reads the version of the record at the start of a text. -/
def readProbe : Reader Probe := fun text =>
  match skipBlanks text with
  | [] => .error .cutOff
  | first :: rest =>
      if first = openBrace then probeRecord rest
      else if first = openBracket then probeList rest
      else .error (mismatchAt (.record probeName) first rest)

/-! ## The second reading -/

/-- The members of a snapshot that have been met. -/
structure Draft where
  version : Option Word
  memory : Option (Array Word)
  /-- Met as null or as a number. -/
  pc : Option (Option Nat)
  registers : Option (Vector Word 8)
  /-- From bottom to top. -/
  stack : Option (Array Word)
  result : Option Word

namespace Draft

/-- No member has been met. -/
def empty : Draft := ⟨none, none, none, none, none, none⟩

/-- Reads a member, which must not have been met, and stores it. -/
def take {A : Type} (key : String) (met : Option A) (reader : Reader A) (store : A → Draft) :
    Reader Draft := fun text =>
  match readOnce key met.isSome reader text with
  | .error failure => .error failure
  | .ok (value, rest) => .ok (store value, rest)

/-- Gathers the members of a snapshot and skips all others. -/
def gather (draft : Draft) (key : String) : Reader Draft :=
  match key with
  | "version" => take key draft.version readWord fun value => { draft with version := some value }
  | "memory" => take key draft.memory readWords fun value => { draft with memory := some value }
  | "pc" => take key draft.pc readSize? fun value => { draft with pc := some value }
  | "registers" =>
      take key draft.registers (readWordsOf 8) fun value => { draft with registers := some value }
  | "stack" => take key draft.stack readWords fun value => { draft with stack := some value }
  | "result" => take key draft.result readWord fun value => { draft with result := some value }
  | _ => fun text =>
      match skipMember text with
      | .error failure => .error failure
      | .ok rest => .ok (draft, rest)

theorem advances_take {A : Type} {key : String} {met : Option A} {reader : Reader A}
    {store : A → Draft} (advances : reader.Advances) : (take key met reader store).Advances := by
  intro text rest draft read
  unfold take at read
  split at read
  · contradiction
  · next once =>
      cases read
      exact advances_readOnce advances once

theorem advances_gather (draft : Draft) (key : String) : (gather draft key).Advances := by
  unfold gather
  split
  · exact advances_take advances_readWord
  · exact advances_take advances_readWords
  · exact advances_take advances_readSize?
  · exact advances_take (advances_readWordsOf 8)
  · exact advances_take advances_readWords
  · exact advances_take advances_readWord
  · intro text rest value read
    simp only at read
    split at read
    · contradiction
    · next skipped =>
        cases read
        exact length_of_skipMember skipped

/-- A member that must have been met. -/
def require {A : Type} (key : String) (met : Option A) : Except Failure A :=
  match met with
  | some value => .ok value
  | none => .error (.unfit (.missingMember key))

/-- The machine that the members make up; the first missing member in their order is reported. -/
def machine (draft : Draft) : Except Failure Machine :=
  match require "version" draft.version, require "memory" draft.memory,
      require "registers" draft.registers, require "stack" draft.stack,
      require "result" draft.result with
  | .error failure, _, _, _, _ => .error failure
  | _, .error failure, _, _, _ => .error failure
  | _, _, .error failure, _, _ => .error failure
  | _, _, _, .error failure, _ => .error failure
  | _, _, _, _, .error failure => .error failure
  | .ok _, .ok memory, .ok registers, .ok stack, .ok result =>
      .ok ⟨⟨memory⟩, ⟨registers⟩, stack.toList.reverse, draft.pc.join, result⟩

end Draft

def draftGatherer : Gatherer Draft := ⟨Draft.gather, Draft.advances_gather⟩

/-- Reads all members of the record at the start of a text. -/
def readMachine : Reader Machine := fun text =>
  match skipBlanks text with
  | [] => .error .cutOff
  | first :: rest =>
      if first = openBrace then
        match readMembers draftGatherer .empty true rest with
        | .error failure => .error failure
        | .ok (draft, rest) =>
            match draft.machine with
            | .error failure => .error failure
            | .ok machine => .ok (machine, rest)
      else
        .error (mismatchAt (.record "Snapshot") first rest)

/-! ## Whole texts -/

/-- Reads a text that must hold nothing else. -/
def readAll {A : Type} (reader : Reader A) (text : Bytes) : Except Failure A :=
  match reader text with
  | .error failure => .error failure
  | .ok (value, rest) =>
      match expectEnd rest with
      | .error failure => .error failure
      | .ok () => .ok value

/-- The machine of a text whose version has been found to be the one that can be read. -/
def decodeProbed (text : Bytes) : Probe → Except Failure Machine
  | .record _ => readAll readMachine text
  | .list _ => .error (.unfit (.wrongLength 1 (.members "Snapshot" 6)))

/-- The machine that a text describes. -/
def decode (text : Bytes) : Except SnapshotError Machine :=
  match readAll readProbe text with
  | .error failure => .error (.malformed failure)
  | .ok probe =>
      match checkVersion probe.version with
      | .error error => .error error
      | .ok _ =>
          match decodeProbed text probe with
          | .error failure => .error (.malformed failure)
          | .ok machine => .ok machine

end RegisterMachine.Snapshot
