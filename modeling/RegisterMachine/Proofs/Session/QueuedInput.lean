import RegisterMachine.Proofs.Lines
import RegisterMachine.Proofs.Session.Phases

/-!
Contract: what a session queues for its program to read.

The lines of the input file come first and the texts of the plan after them,
each with one line feed. How the lines of the file are ended does not show in
the queue, and neither do its empty lines; an empty text of the plan does, since
it is a line that the user wants to send.

Owns: the input of a session, as a function of its file and its plan.
Does not own: the lines of a text (`Proofs.Lines`).
-/

namespace RegisterMachine.Session

open Files

/-- The codes that a text of the plan is queued as, whatever ends it has already. -/
def sentCodes (text : String) : List Word :=
  Text.units (text.toList.rdropWhile fun character => character = '\r' ∨ character = '\n') ++
    [Text.lineFeed]

/-- The input that lines of a file and texts of a plan make up. -/
def inputOf (lines : List (List Char)) (send : List String) : InputQueue :=
  ⟨lines.flatMap Text.queuedLine ++ send.flatMap sentCodes⟩

variable {plan : Plan} {desk : Desk} {path text : String}

theorem lineCodes_eq_sentCodes (text : String) : Text.lineCodes text = sentCodes text := by
  rw [Text.lineCodes, Text.trimLineEnds_toList]
  rfl

theorem flatMap_lineCodes_fileLines (text : String) :
    (fileLines text).flatMap Text.lineCodes = (Text.linesOf text.toList).flatMap Text.queuedLine :=
  Text.flatMap_lineCodes_filter (Text.unbroken_of_splits (Text.splits_linesOf text.toList))

/-- A file that holds the UTF-8 form of a text gives the lines of this text. -/
theorem succeeds_linesOfFile (holds : desk.files.read path = .ok (Text.encode text)) :
    Succeeds (linesOfFile (some path)) desk (fileLines text) desk := by
  have decodes : Session.decodeText path (Text.encode text) = .ok text := by
    rw [decodeText_eq_ok_iff, RegisterMachine.decodeText, Text.decode?_encode]
  exact succeeds_bind_iff.mpr ⟨_, desk, succeeds_readFile_iff.mpr ⟨holds, rfl⟩,
    succeeds_bind_iff.mpr ⟨text, desk, succeeds_lift_iff.mpr ⟨decodes, rfl⟩,
      succeeds_pure_iff.mpr ⟨rfl, rfl⟩⟩⟩

theorem succeeds_queueInput_of_file (untyped : plan.readInput = false)
    (named : plan.input = some path) (holds : desk.files.read path = .ok (Text.encode text)) :
    Succeeds (queueInput plan) desk (inputOf (Text.linesOf text.toList) plan.send) desk := by
  have typesNothing : Succeeds (typedLines plan.readInput) desk [] desk := by
    rw [untyped]
    exact succeeds_pure_iff.mpr ⟨rfl, rfl⟩
  have fromFile := succeeds_linesOfFile holds
  rw [← named] at fromFile
  refine succeeds_bind_iff.mpr ⟨_, desk, fromFile, succeeds_bind_iff.mpr ⟨_, desk, typesNothing,
    succeeds_pure_iff.mpr ⟨?_, rfl⟩⟩⟩
  have sameCodes : Text.lineCodes = sentCodes := funext lineCodes_eq_sentCodes
  rw [inputOf, ← flatMap_lineCodes_fileLines, ← sameCodes, List.append_nil, ← List.flatMap_append]
  rfl

/-- What a session queues if its input file holds a text with these lines. -/
structure Queues (plan : Plan) (desk : Desk) (path text : String) (lines : List (List Char)) :
    Prop where
  /-- These are the lines of the text, and no others are. -/
  splits : ∀ others, Text.Splits text.toList others ↔ others = lines
  queued : Succeeds (queueInput plan) desk (inputOf lines plan.send) desk
  /-- Line ends, empty lines and the end of the last line are of no account. -/
  relaid : ∀ (otherDesk : Desk) (other : String), Text.Relaid text.toList other.toList →
    otherDesk.files.read path = .ok (Text.encode other) →
    Succeeds (queueInput plan) otherDesk (inputOf lines plan.send) otherDesk
  /-- In a text without carriage returns, all line ends can be changed at once. -/
  returned : '\r' ∉ text.toList → Text.Relaid text.toList (Text.withReturns text.toList)

/-- A session queues the lines of its input file, without the empty ones, and then the texts of its
plan, and it queues the same for all texts that only differ in line ends and empty lines. -/
theorem queues_lines_then_sent (untyped : plan.readInput = false) (named : plan.input = some path)
    (holds : desk.files.read path = .ok (Text.encode text)) :
    ∃ lines, Queues plan desk path text lines := by
  refine ⟨Text.linesOf text.toList, fun others => Text.splits_iff,
    succeeds_queueInput_of_file untyped named holds, ?_, Text.relaid_withReturns⟩
  intro otherDesk other relaid holdsOther
  have sameInput : inputOf (Text.linesOf text.toList) plan.send =
      inputOf (Text.linesOf other.toList) plan.send :=
    congrArg (fun codes => InputQueue.mk (codes ++ plan.send.flatMap sentCodes))
      (Text.queuedLines_eq_of_relaid relaid)
  rw [sameInput]
  exact succeeds_queueInput_of_file untyped named holdsOther

/-- Sends an empty text after the lines of a file. -/
def sendingPlan : Plan := { Plan.plain "echo" with input := some "keys", send := ["", "go\r\n"] }

/-- A desk with a file that has an empty line and no end of its last line. -/
def blankLineDesk : Desk := .start ⟨[("keys", [104, 105, 10, 10, 104, 111])]⟩ []

theorem queues_lines_then_sent_of_blankLine :
    sendingPlan.readInput = false ∧ sendingPlan.input = some "keys" ∧
      blankLineDesk.files.read "keys" = .ok (Text.encode "hi\n\nho") ∧
      ∃ lines, Queues sendingPlan blankLineDesk "keys" "hi\n\nho" lines := by
  have holds : blankLineDesk.files.read "keys" = .ok (Text.encode "hi\n\nho") := by decide
  exact ⟨rfl, rfl, holds, queues_lines_then_sent rfl rfl holds⟩

end RegisterMachine.Session
