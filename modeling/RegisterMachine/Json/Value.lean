import RegisterMachine.Json.Skip

/-!
Contract: reading the values that a record of a machine is made of.

A reader takes the text before a value and gives the value with the rest of the
text. It stops at the first fault from left to right: text that is no JSON, text
that ends too early, or a value of another type, range or length.

Owns: `Reader`; readers of words, sizes and lists of words.
Does not own: records (`Json.Record`).
-/

namespace RegisterMachine.Json

open Mark

/-- A reader of values of this type. -/
abbrev Reader (A : Type) := Bytes → Except Failure (A × Bytes)

/-- A reader that leaves less text than it was given. -/
def Reader.Advances {A : Type} (reader : Reader A) : Prop :=
  ∀ {text rest : Bytes} {value : A}, reader text = .ok (value, rest) → rest.length < text.length

/-! ## Values of another type -/

/-- What the reading of a word such as `null` shows to have been found. -/
def foundWord (expected : Expected) (found : Found) (letters : String) (text : Bytes) : Failure :=
  match expectBytes (ascii letters) text with
  | .error failure => failure
  | .ok _ => .unfit (.wrongType found expected)

/-- The failure of a text that begins with a value of another type than the expected one. -/
def mismatchAt (expected : Expected) (first : UInt8) (rest : Bytes) : Failure :=
  if first = letter 'n' then foundWord expected .null "ull" rest
  else if first = letter 't' then foundWord expected (.boolean true) "rue" rest
  else if first = letter 'f' then foundWord expected (.boolean false) "alse" rest
  else if first = minus ∨ isDigit first then
    match readNumber (first :: rest) with
    | .error failure => failure
    | .ok (number, _) => .unfit (.wrongType number.found expected)
  else if first = quote then
    match readString rest with
    | .error failure => failure
    | .ok (text, _) => .unfit (.wrongType (.string text) expected)
  else if first = openBracket then .unfit (.wrongType .sequence expected)
  else if first = openBrace then .unfit (.wrongType .record expected)
  else .illFormed

/-! ## Integers -/

/-- The value of a number that must be an integer from zero to below a bound. -/
def Number.below (number : Number) (expected : Expected) (bound : Nat) : Except Mismatch Nat :=
  match number with
  | .natural value =>
      if value < bound then .ok value else .error (.outOfRange value expected)
  | .negative magnitude => .error (.outOfRange (- (magnitude : Int)) expected)
  | .floating => .error (.wrongType .floating expected)

def readNatural (expected : Expected) (bound : Nat) : Reader Nat := fun text =>
  match skipBlanks text with
  | [] => .error .cutOff
  | first :: rest =>
      if first = minus ∨ isDigit first then
        match readNumber (first :: rest) with
        | .error failure => .error failure
        | .ok (number, rest) =>
            match number.below expected bound with
            | .error mismatch => .error (.unfit mismatch)
            | .ok value => .ok (value, rest)
      else
        .error (mismatchAt expected first rest)

theorem advances_readNatural (expected : Expected) (bound : Nat) :
    (readNatural expected bound).Advances := by
  intro text rest value read
  unfold readNatural at read
  split at read
  · contradiction
  · next first tail blanks =>
      have blanksLt := length_of_skipBlanks blanks
      split at read
      · split at read
        · contradiction
        · next number after scanned =>
            have numberLt := length_of_readNumber scanned
            rw [List.length_cons] at numberLt
            split at read
            · contradiction
            · cases read
              omega
      · contradiction

/-- Reads an integer from 0 to 65535. -/
def readWord : Reader Word := fun text =>
  match readNatural .word 0x10000 text with
  | .error failure => .error failure
  | .ok (value, rest) => .ok (UInt16.ofNat value, rest)

/-- Reads an integer from 0 to 2^64 - 1. -/
def readSize : Reader Nat := readNatural .size 0x10000000000000000

/-- Reads null as nothing, and anything else as a size. -/
def readSize? : Reader (Option Nat) := fun text =>
  let number : Except Failure (Option Nat × Bytes) :=
    match readSize text with
    | .error failure => .error failure
    | .ok (value, rest) => .ok (some value, rest)
  match skipBlanks text with
  | [] => number
  | first :: rest =>
      if first = letter 'n' then
        match expectBytes (ascii "ull") rest with
        | .error failure => .error failure
        | .ok after => .ok (none, after)
      else
        number

theorem advances_readWord : readWord.Advances := by
  intro text rest value read
  unfold readWord at read
  split at read
  · contradiction
  · next found =>
      cases read
      exact advances_readNatural _ _ found

theorem advances_readSize? : readSize?.Advances := by
  have number {text rest : Bytes} {value : Option Nat}
      (read : (match readSize text with
        | .error failure => .error failure
        | .ok (value, rest) => .ok (some value, rest) :
          Except Failure (Option Nat × Bytes)) = .ok (value, rest)) :
      rest.length < text.length := by
    split at read
    · contradiction
    · next found =>
        cases read
        exact advances_readNatural _ _ found
  intro text rest value read
  unfold readSize? at read
  simp only at read
  split at read
  · exact number read
  · next first tail blanks =>
      have blanksLt := length_of_skipBlanks blanks
      split at read
      · split at read
        · contradiction
        · next after word =>
            cases read
            have wordLe := length_of_expectBytes word
            omega
      · exact number read

/-! ## Lists of words -/

/-- Skips the bracket that opens a list. -/
def openList (expected : Expected) (text : Bytes) : Except Failure Bytes :=
  match skipBlanks text with
  | [] => .error .cutOff
  | first :: rest =>
      if first = openBracket then .ok rest else .error (mismatchAt expected first rest)

/-- Skips the bracket that closes a list of which all elements have been read. -/
def closeList (text : Bytes) : Except Failure Bytes :=
  match skipBlanks text with
  | [] => .error .cutOff
  | first :: rest => if first = closeBracket then .ok rest else .error .illFormed

/-- Reads the words that remain of a list. -/
def readElements (done : Array Word) (text : Bytes) : Except Failure (Array Word × Bytes) :=
  match _found : next .list done.isEmpty text with
  | .error failure => .error failure
  | .ok (.finish rest) => .ok (done, rest)
  | .ok (.entry inside) =>
      match _read : readWord inside with
      | .error failure => .error failure
      | .ok (value, rest) => readElements (done.push value) rest
termination_by text.length
decreasing_by
  have insideLe := length_of_next_entry _found
  have wordLt := advances_readWord _read
  omega

/-- Reads a list of words. -/
def readWords : Reader (Array Word) := fun text =>
  match openList .sequence text with
  | .error failure => .error failure
  | .ok inside => readElements #[] inside

/-- Reads as many more words as a list must still hold, and its end. -/
def readRemaining (done : Array Word) (text : Bytes) :
    (remaining : Nat) → Except Failure (Array Word × Bytes)
  | 0 =>
      match closeList text with
      | .error failure => .error failure
      | .ok rest => .ok (done, rest)
  | remaining + 1 =>
      match next .list done.isEmpty text with
      | .error failure => .error failure
      | .ok (.finish _) =>
          .error (.unfit (.wrongLength done.size (.words (done.size + remaining + 1))))
      | .ok (.entry inside) =>
          match readWord inside with
          | .error failure => .error failure
          | .ok (value, rest) => readRemaining (done.push value) rest remaining

/-- Reads a list of exactly `count` words. -/
def readWordsOf (count : Nat) : Reader (Vector Word count) := fun text =>
  match openList (.words count) text with
  | .error failure => .error failure
  | .ok inside =>
      match readRemaining #[] inside count with
      | .error failure => .error failure
      | .ok (words, rest) =>
          if exact : words.size = count then .ok (⟨words, exact⟩, rest)
          else .error (.unfit (.wrongLength words.size (.words count)))

theorem length_of_openList {expected : Expected} {text inside : Bytes}
    (opened : openList expected text = .ok inside) : inside.length < text.length := by
  unfold openList at opened
  split at opened
  · contradiction
  · next first rest blanks =>
      split at opened
      · cases opened
        exact length_of_skipBlanks blanks
      · contradiction

theorem length_of_closeList {text rest : Bytes} (closed : closeList text = .ok rest) :
    rest.length < text.length := by
  unfold closeList at closed
  split at closed
  · contradiction
  · next first tail blanks =>
      split at closed
      · cases closed
        exact length_of_skipBlanks blanks
      · contradiction

theorem length_of_readElements {done words : Array Word} {text rest : Bytes}
    (read : readElements done text = .ok (words, rest)) : rest.length ≤ text.length := by
  fun_induction readElements done text
  case case2 =>
    rename_i found
    cases read
    exact Nat.le_of_lt (length_of_next_finish found)
  case case4 =>
    rename_i found _ _ word inductionHypothesis
    have restLe := inductionHypothesis read
    have insideLe := length_of_next_entry found
    have wordLt := advances_readWord word
    omega
  all_goals contradiction

theorem length_of_readRemaining {done words : Array Word} {text rest : Bytes} {remaining : Nat}
    (read : readRemaining done text remaining = .ok (words, rest)) :
    rest.length ≤ text.length := by
  induction remaining generalizing done text with
  | zero =>
      unfold readRemaining at read
      split at read
      · contradiction
      · next closed =>
          cases read
          exact Nat.le_of_lt (length_of_closeList closed)
  | succ remaining inductionHypothesis =>
      unfold readRemaining at read
      split at read
      · contradiction
      · contradiction
      · next found =>
          split at read
          · contradiction
          · next word =>
              have restLe := inductionHypothesis read
              have insideLe := length_of_next_entry found
              have wordLt := advances_readWord word
              omega

theorem advances_readWords : readWords.Advances := by
  intro text rest words read
  unfold readWords at read
  split at read
  · contradiction
  · next opened =>
      have openLt := length_of_openList opened
      have restLe := length_of_readElements read
      omega

theorem advances_readWordsOf (count : Nat) : (readWordsOf count).Advances := by
  intro text rest words read
  unfold readWordsOf at read
  split at read
  · contradiction
  · next opened =>
      split at read
      · contradiction
      · next remaining =>
          split at read
          · cases read
            have openLt := length_of_openList opened
            have restLe := length_of_readRemaining remaining
            omega
          · contradiction

end RegisterMachine.Json
