import RegisterMachine.Files
import RegisterMachine.Files.WriteBuffer
import RegisterMachine.Session.Console

/-!
Contract: what a session writes to its log and to its trace.

Each of the two has a write buffer. So a part of the record of a console
reaches the files while the machine runs, and the rest when the session is
over. The log is appended to its file; the trace goes on where it has stopped,
whatever has become of its file since.

Owns: `Target`, `Parcel`, `Outbox` and the changes of files that it asks for.
Does not own: when these changes are made (`Session`).
-/

namespace RegisterMachine.Session

/-- A file that is written while the machine runs. -/
inductive Target where
  /-- What is printed. -/
  | log
  /-- A line for each observed event. -/
  | trace
deriving DecidableEq, Repr

namespace Entry

/-- The pieces that an entry adds to a target. -/
def pieces : Target → Entry → List Bytes
  | .log, .printed code => [encodeWord code]
  | .trace, .observed event => (Listing.tracePieces event).map Text.encode
  | .log, .observed _ => []
  | .trace, .printed _ => []

/-- The target that an entry adds something to. -/
def target : Entry → Target
  | .printed _ => .log
  | .observed _ => .trace

/-- All that an entry adds to a target. -/
def text : Target → Entry → Bytes
  | .log, .printed code => encodeWord code
  | .trace, .observed event => Text.encode (Listing.traceLine event ++ "\n")
  | .log, .observed _ => []
  | .trace, .printed _ => []

theorem flatten_pieces (target : Target) (entry : Entry) :
    (entry.pieces target).flatten = entry.text target := by
  cases target <;> cases entry <;>
    simp [pieces, text, ← List.flatMap_def, ← Text.encode_join, Listing.join_tracePieces]

theorem text_of_ne {target : Target} {entry : Entry} (different : entry.target ≠ target) :
    entry.text target = [] := by
  cases entry with
  | printed code =>
      cases target with
      | log => exact absurd rfl different
      | trace => rfl
  | observed event =>
      cases target with
      | log => rfl
      | trace => exact absurd rfl different

end Entry

/-- Bytes that have been passed on to a target. -/
structure Parcel where
  target : Target
  content : Array UInt8
deriving DecidableEq, Repr

namespace Parcel

/-- What the parcel brings to a target. -/
def brings (target : Target) (parcel : Parcel) : Bytes :=
  if parcel.target = target then parcel.content.toList else []

/-- Adds a parcel after others, the last of which comes first. Bytes for the target of that one
go with it. -/
def post (target : Target) (content : Array UInt8) : List Parcel → List Parcel
  | [] => [⟨target, content⟩]
  | ⟨last, earlier⟩ :: rest =>
      if last = target then ⟨last, earlier ++ content⟩ :: rest
      else ⟨target, content⟩ :: ⟨last, earlier⟩ :: rest

theorem flatMap_post (target other : Target) (content : Array UInt8) (parcels : List Parcel) :
    (post target content parcels).reverse.flatMap (brings other) =
      parcels.reverse.flatMap (brings other) ++ brings other ⟨target, content⟩ := by
  cases parcels with
  | nil => simp [post]
  | cons parcel rest =>
      obtain ⟨last, earlier⟩ := parcel
      unfold post
      by_cases same : last = target
      · by_cases wanted : target = other <;> simp [same, brings, wanted]
      · simp [same]

end Parcel

/-- What has been written to the two targets. -/
structure Outbox where
  log : WriteBuffer
  trace : WriteBuffer
  /-- What has been passed on, the last parcel first. -/
  sent : List Parcel
deriving DecidableEq, Repr

namespace Outbox

def empty : Outbox := ⟨.empty, .empty, []⟩

def buffer (outbox : Outbox) : Target → WriteBuffer
  | .log => outbox.log
  | .trace => outbox.trace

/-- Puts passed bytes on their way, if there are any. -/
def send (target : Target) (passed : Array UInt8) (sent : List Parcel) : List Parcel :=
  if passed.isEmpty then sent else Parcel.post target passed sent

/-- Writes a piece to a target. -/
def write (target : Target) (outbox : Outbox) (piece : Bytes) : Outbox :=
  match target, outbox with
  | .log, ⟨log, trace, sent⟩ =>
      match log.write piece with
      | (passed, log) => ⟨log, trace, send .log passed sent⟩
  | .trace, ⟨log, trace, sent⟩ =>
      match trace.write piece with
      | (passed, trace) => ⟨log, trace, send .trace passed sent⟩

/-- Writes an entry of a record. -/
def enter (outbox : Outbox) (entry : Entry) : Outbox :=
  (entry.pieces entry.target).foldl (write entry.target) outbox

/-- The outbox after a record. -/
def ofRecord (record : Array Entry) : Outbox := record.foldl enter empty

/-! ## Nothing is lost -/

/-- All that has been written to a target. -/
def total (outbox : Outbox) (target : Target) : Bytes :=
  outbox.sent.reverse.flatMap (Parcel.brings target) ++ (outbox.buffer target).held.toList

theorem flatMap_send (target other : Target) (passed : Array UInt8) (sent : List Parcel) :
    (send target passed sent).reverse.flatMap (Parcel.brings other) =
      sent.reverse.flatMap (Parcel.brings other) ++ Parcel.brings other ⟨target, passed⟩ := by
  unfold send
  split
  · next noneAtAll =>
      have isNil : passed = #[] := Array.isEmpty_iff.1 noneAtAll
      simp [isNil, Parcel.brings]
  · exact Parcel.flatMap_post target other passed sent

theorem total_write (target other : Target) (outbox : Outbox) (piece : Bytes) :
    (outbox.write target piece).total other =
      outbox.total other ++ if target = other then piece else [] := by
  obtain ⟨log, trace, sent⟩ := outbox
  have logKept := log.passed_append_held piece
  have traceKept := trace.passed_append_held piece
  cases target <;> cases other <;>
    simp [write, total, buffer, flatMap_send, Parcel.brings, logKept, traceKept]

theorem total_foldl_write (target other : Target) (outbox : Outbox) (pieces : List Bytes) :
    (pieces.foldl (write target) outbox).total other =
      outbox.total other ++ if target = other then pieces.flatten else [] := by
  induction pieces generalizing outbox with
  | nil => simp
  | cons piece rest inductionHypothesis =>
      rw [List.foldl_cons, inductionHypothesis, total_write, List.append_assoc]
      by_cases same : target = other <;> simp [same]

theorem total_enter (outbox : Outbox) (entry : Entry) (target : Target) :
    (outbox.enter entry).total target = outbox.total target ++ entry.text target := by
  rw [enter, total_foldl_write]
  by_cases same : entry.target = target
  · rw [if_pos same, same, Entry.flatten_pieces]
  · rw [if_neg same, Entry.text_of_ne same]

/-- A target receives the texts of all entries. -/
theorem total_ofRecord (record : Array Entry) (target : Target) :
    (ofRecord record).total target = record.toList.flatMap (Entry.text target) := by
  have general (entries : List Entry) (outbox : Outbox) :
      (entries.foldl enter outbox).total target =
        outbox.total target ++ entries.flatMap (Entry.text target) := by
    induction entries generalizing outbox with
    | nil => simp
    | cons entry rest inductionHypothesis =>
        rw [List.foldl_cons, inductionHypothesis, total_enter, List.flatMap_cons,
          List.append_assoc]
  rw [ofRecord, ← Array.foldl_toList, general]
  cases target <;> rfl

/-! ## Changes of files -/

/-- How a target's file is changed by bytes, of which so many have been passed on before. -/
def change (target : Target) (passed : Nat) (content : Bytes) : Target × FileChange :=
  match target with
  | .log => (.log, .append content)
  | .trace => (.trace, .overwrite passed content)

/-- The number of bytes that parcels bring to a target. -/
def passedTo (target : Target) (parcels : List Parcel) : Nat :=
  parcels.foldl
    (fun count parcel => if parcel.target = target then count + parcel.content.size else count) 0

/-- The changes that parcels ask for, the last of which comes first. -/
def changesOf : List Parcel → List (Target × FileChange)
  | [] => []
  | parcel :: earlier =>
      changesOf earlier ++
        [change parcel.target (passedTo parcel.target earlier) parcel.content.toList]

/-- The changes that are made while the machine runs. -/
def changesDuring (outbox : Outbox) : List (Target × FileChange) := changesOf outbox.sent

/-- The changes that are made when the session is over. -/
def changesAfter (outbox : Outbox) : List (Target × FileChange) :=
  [Target.log, Target.trace].map fun target =>
    change target (passedTo target outbox.sent) (outbox.buffer target).held.toList

end Outbox

end RegisterMachine.Session
