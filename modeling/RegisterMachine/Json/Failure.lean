import RegisterMachine.Text.Quoted

/-!
Contract: why JSON text cannot be read as the value that was asked for.

Text may be no JSON at all, may end too early, or may hold a value of another
shape. A failure of shape says what was found and what was expected.

Owns: `Failure`, `Mismatch` and the wording of a mismatch.
Does not own: when a failure arises.
-/

namespace RegisterMachine.Json

/-- What was found where something else was expected. -/
inductive Found where
  | null
  | boolean (value : Bool)
  | integer (value : Int)
  | floating
  | string (text : String)
  | sequence
  | record
deriving DecidableEq, Repr

/-- What was expected. -/
inductive Expected where
  /-- An integer from 0 to 65535. -/
  | word
  /-- An integer from 0 to 2^64 - 1. -/
  | size
  | sequence
  /-- Exactly this many words. -/
  | words (count : Nat)
  | record (name : String)
  /-- A record written as the list of its members. -/
  | members (name : String) (count : Nat)
deriving DecidableEq, Repr

inductive Mismatch where
  | wrongType (found : Found) (expected : Expected)
  | outOfRange (value : Int) (expected : Expected)
  | wrongLength (length : Nat) (expected : Expected)
  | missingMember (name : String)
  | duplicateMember (name : String)
deriving DecidableEq, Repr

inductive Failure where
  /-- The text breaks the rules of JSON. -/
  | illFormed
  /-- The text ends before the value does. -/
  | cutOff
  /-- The text is good so far, but the value is not the expected one. -/
  | unfit (cause : Mismatch)
deriving DecidableEq, Repr

def Found.describe : Found → String
  | .null => "null"
  | .boolean true => "boolean `true`"
  | .boolean false => "boolean `false`"
  | .integer value => s!"integer `{value}`"
  | .floating => "floating point"
  | .string text => "string " ++ Text.quotedString text
  | .sequence => "sequence"
  | .record => "map"

def Expected.describe : Expected → String
  | .word => "u16"
  | .size => "usize"
  | .sequence => "a sequence"
  | .words count => s!"an array of length {count}"
  | .record name => "struct " ++ name
  | .members name count =>
      "struct " ++ name ++ s!" with {count} element" ++ (if count = 1 then "" else "s")

def Mismatch.message : Mismatch → String
  | .wrongType found expected =>
      "invalid type: " ++ found.describe ++ ", expected " ++ expected.describe
  | .outOfRange value expected =>
      s!"invalid value: integer `{value}`, expected " ++ expected.describe
  | .wrongLength length expected =>
      s!"invalid length {length}, expected " ++ expected.describe
  | .missingMember name => "missing field `" ++ name ++ "`"
  | .duplicateMember name => "duplicate field `" ++ name ++ "`"

def Failure.message : Failure → String
  | .illFormed => "not JSON"
  | .cutOff => "unexpected end of text"
  | .unfit cause => cause.message

/-- Demands the bytes of a word such as `null` at the start of a text. -/
def expectBytes : (expected text : List UInt8) → Except Failure (List UInt8)
  | [], rest => .ok rest
  | _ :: _, [] => .error .cutOff
  | byte :: expected, first :: rest =>
      if first = byte then expectBytes expected rest else .error .illFormed

theorem eq_append_of_expectBytes {expected text rest : List UInt8}
    (found : expectBytes expected text = .ok rest) : text = expected ++ rest := by
  induction expected generalizing text with
  | nil =>
      cases found
      rfl
  | cons byte expected inductionHypothesis =>
      cases text with
      | nil => contradiction
      | cons first tail =>
          simp only [expectBytes] at found
          split at found
          · next same => rw [inductionHypothesis found, same, List.cons_append]
          · contradiction

end RegisterMachine.Json
