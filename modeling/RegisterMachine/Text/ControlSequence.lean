/-!
Contract: text without the control sequences of a terminal.

A sequence begins with an escape character. One that a bracket introduces, a
control sequence proper, goes on to its final character; one that introduces a
string goes on to the end of the string; any other one is short. Cancel and
substitute break a sequence off, and an escape character begins a new one.

The white controls (tab, line feed, form feed and carriage return) are shown
even where a short or control sequence is open, and with them all that follows
up to the next character that ordinary text does not show. From there on the
open sequence is continued.

Owns: `Phase`, what a character does to it, and `stripControls`.
Does not own: the texts that are stripped (`Log.Event.text`).
-/

namespace RegisterMachine.Text

/-- The escape character. -/
def escapeChar : Char := '\x1b'

/-- Tab, line feed, form feed and carriage return. -/
def isWhiteControl (character : Char) : Bool :=
  character == '\t' || character == '\n' || character == '\x0c' || character == '\r'

/-- The character has a code from `first` to `last`. -/
def isWithin (first last : Nat) (character : Char) : Bool :=
  decide (first ≤ character.toNat) && decide (character.toNat ≤ last)

/-- The character leads on to the final one: a blank or a punctuation mark up to the slash. -/
def isIntermediate : Char → Bool := isWithin 0x20 0x2f

/-- A digit, a colon or a semicolon. -/
def isParameter : Char → Bool := isWithin 0x30 0x3b

/-- A mark that may only stand at the beginning of the parameters. -/
def isPrivateMark : Char → Bool := isWithin 0x3c 0x3f

/-- The character ends a control sequence. -/
def isFinal : Char → Bool := isWithin 0x40 0x7e

/-- The byte 9C, the string terminator of eight-bit terminals, is part of the character's UTF-8
form. -/
def containsTerminator (character : Char) : Bool :=
  (String.utf8EncodeChar character).contains 0x9c

/-- What a text is in the middle of. -/
inductive Phase where
  /-- No sequence is open. -/
  | ground
  /-- An escape character has been read. -/
  | escape
  | escapeIntermediate
  /-- The introducer of a control sequence has been read. -/
  | controlEntry
  | controlParameters
  | controlIntermediate
  /-- A control sequence that is not well formed. -/
  | controlIgnored
  /-- The introducer of a device string has been read. -/
  | deviceEntry
  | deviceParameters
  | deviceIntermediate
  /-- A string up to its terminator. -/
  | controlString
  /-- The string of an operating system command, which ends at a bell. -/
  | commandString
deriving DecidableEq, Repr

namespace Phase

/-- What follows the escape character. -/
def afterEscape (character : Char) : Phase :=
  if isIntermediate character then .escapeIntermediate
  else if character = '[' then .controlEntry
  else if character = ']' then .commandString
  else if character = 'P' then .deviceEntry
  else if character = 'X' ∨ character = '^' ∨ character = '_' then .controlString
  else if isWithin 0x30 0x7e character then .ground
  else .escape

def afterControlEntry (character : Char) : Phase :=
  if isParameter character || isPrivateMark character then .controlParameters
  else if isIntermediate character then .controlIntermediate
  else if isFinal character then .ground
  else .controlEntry

def afterControlParameters (character : Char) : Phase :=
  if isPrivateMark character then .controlIgnored
  else if isIntermediate character then .controlIntermediate
  else if isFinal character then .ground
  else .controlParameters

def afterControlIntermediate (character : Char) : Phase :=
  if isParameter character || isPrivateMark character then .controlIgnored
  else if isFinal character then .ground
  else .controlIntermediate

def afterDeviceEntry (character : Char) : Phase :=
  if isParameter character || isPrivateMark character then .deviceParameters
  else if isIntermediate character then .deviceIntermediate
  else if isFinal character then .controlString
  else .deviceEntry

def afterDeviceParameters (character : Char) : Phase :=
  if isPrivateMark character then .controlString
  else if isIntermediate character then .deviceIntermediate
  else if isFinal character then .controlString
  else .deviceParameters

def afterDeviceIntermediate (character : Char) : Phase :=
  if isParameter character || isPrivateMark character || isFinal character then .controlString
  else .deviceIntermediate

/-- The phase after a character that is not shown. -/
def next (phase : Phase) (character : Char) : Phase :=
  if character = escapeChar then .escape
  else if character = '\x18' ∨ character = '\x1a' then .ground
  else
    match phase with
    | .ground => .ground
    | .escape => afterEscape character
    | .escapeIntermediate => if isWithin 0x30 0x7e character then .ground else .escapeIntermediate
    | .controlEntry => afterControlEntry character
    | .controlParameters => afterControlParameters character
    | .controlIntermediate => afterControlIntermediate character
    | .controlIgnored => if isFinal character then .ground else .controlIgnored
    | .deviceEntry => afterDeviceEntry character
    | .deviceParameters => afterDeviceParameters character
    | .deviceIntermediate => afterDeviceIntermediate character
    | .controlString => if containsTerminator character then .ground else .controlString
    | .commandString => if character = '\x07' then .ground else .commandString

/-- The character is shown in this phase. -/
def shows (phase : Phase) (character : Char) : Bool :=
  match phase with
  | .ground =>
      isWhiteControl character || decide (0x20 ≤ character.toNat) && character != '\x7f'
  | .escape | .escapeIntermediate | .controlEntry | .controlParameters | .controlIntermediate
  | .controlIgnored => isWhiteControl character
  | .deviceEntry | .deviceParameters | .deviceIntermediate | .controlString
  | .commandString => false

/-- The phase after a character that is shown: beyond ASCII it closes an open sequence. -/
def afterShown (phase : Phase) (character : Char) : Phase :=
  if character.toNat < 0x80 then phase else .ground

end Phase

/-- The characters that are shown, where `showing` tells that the last one was. -/
def shownFrom (phase : Phase) (showing : Bool) : List Char → List Char
  | [] => []
  | character :: rest =>
      if (if showing then Phase.ground else phase).shows character then
        character :: shownFrom (phase.afterShown character) true rest
      else
        shownFrom (phase.next character) false rest

/-- The text without control characters and sequences. -/
def stripControls (text : String) : String :=
  String.ofList (shownFrom .ground false text.toList)

/-! ## Ordinary text -/

/-- Text of shown characters is shown as it is. -/
theorem shownFrom_eq_self {characters : List Char} (showing : Bool)
    (allShown : ∀ character ∈ characters, Phase.ground.shows character = true) :
    shownFrom .ground showing characters = characters := by
  induction characters generalizing showing with
  | nil => rfl
  | cons character rest inductionHypothesis =>
      have shown : Phase.ground.shows character = true := allShown character List.mem_cons_self
      have same : (if showing then Phase.ground else Phase.ground) = Phase.ground := ite_self _
      have stays : Phase.ground.afterShown character = .ground := by
        unfold Phase.afterShown
        split <;> rfl
      rw [shownFrom, same, if_pos shown, stays,
        inductionHypothesis true fun other isIn => allShown other (List.mem_cons_of_mem _ isIn)]

theorem shows_ground_of_shows {phase : Phase} {character : Char}
    (shown : phase.shows character = true) : Phase.ground.shows character = true := by
  cases phase <;> simp_all [Phase.shows]

/-- Nothing is shown that ordinary text would not show. -/
theorem shows_ground_of_mem_shownFrom {phase : Phase} {showing : Bool} {characters : List Char}
    {character : Char} (isIn : character ∈ shownFrom phase showing characters) :
    Phase.ground.shows character = true := by
  induction characters generalizing phase showing with
  | nil => cases isIn
  | cons first rest inductionHypothesis =>
      rw [shownFrom] at isIn
      by_cases shown : (if showing then Phase.ground else phase).shows first = true
      · rw [if_pos shown] at isIn
        rcases List.mem_cons.1 isIn with same | later
        · rw [same]
          exact shows_ground_of_shows shown
        · exact inductionHypothesis later
      · rw [if_neg shown] at isIn
        exact inductionHypothesis isIn

end RegisterMachine.Text
