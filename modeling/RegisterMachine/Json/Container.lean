import RegisterMachine.Json.Failure
import RegisterMachine.Json.Mark

/-!
Contract: the entries of a list or record.

Entries are separated by commas; no comma stands before the first entry or
after the last one.

Owns: `Container`, the walk from one entry to the next, the colon of a member.
Does not own: what the entries hold (`Json.Skip`, `Json.Value`).
-/

namespace RegisterMachine.Json

open Mark

/-- A value that holds others. -/
inductive Container where
  | list
  | record
deriving DecidableEq, Repr

namespace Container

def closingMark : Container → UInt8
  | .list => closeBracket
  | .record => closeBrace

/-- The container that a mark opens. -/
def ofOpening? (mark : UInt8) : Option Container :=
  if mark = openBracket then some .list
  else if mark = openBrace then some .record
  else none

end Container

/-- What a container goes on with. -/
inductive Next where
  /-- An entry begins at this text. -/
  | entry (text : Bytes)
  /-- The container has ended before this text. -/
  | finish (rest : Bytes)
deriving DecidableEq, Repr

/-- The entry after a comma. -/
def nextAfterComma (container : Container) (text : Bytes) : Except Failure Next :=
  match skipBlanks text with
  | [] => .error .cutOff
  | mark :: rest =>
      if mark = container.closingMark then .error .illFormed else .ok (.entry (mark :: rest))

/-- Finds the next entry of a container, which is its first one if `first`. -/
def next (container : Container) (first : Bool) (text : Bytes) : Except Failure Next :=
  match skipBlanks text with
  | [] => .error .cutOff
  | mark :: rest =>
      if mark = container.closingMark then .ok (.finish rest)
      else if first then .ok (.entry (mark :: rest))
      else if mark = comma then nextAfterComma container rest
      else .error .illFormed

theorem length_of_nextAfterComma {container : Container} {text inside : Bytes}
    (found : nextAfterComma container text = .ok (.entry inside)) :
    inside.length ≤ text.length := by
  unfold nextAfterComma at found
  split at found
  · contradiction
  · next mark rest blanks =>
      split at found
      · contradiction
      · cases found
        exact length_of_skipBlanks blanks

theorem length_of_next_entry {container : Container} {first : Bool} {text inside : Bytes}
    (found : next container first text = .ok (.entry inside)) : inside.length ≤ text.length := by
  unfold next at found
  split at found
  · contradiction
  · next mark rest blanks =>
      have blanksLt := length_of_skipBlanks blanks
      split at found
      · cases found
      · split at found
        · cases found
          exact blanksLt
        · split at found
          · have insideLe := length_of_nextAfterComma found
            omega
          · contradiction

theorem length_of_next_finish {container : Container} {first : Bool} {text rest : Bytes}
    (found : next container first text = .ok (.finish rest)) : rest.length < text.length := by
  unfold next at found
  split at found
  · contradiction
  · next mark after blanks =>
      split at found
      · cases found
        exact length_of_skipBlanks blanks
      · split at found
        · cases found
        · split at found
          · unfold nextAfterComma at found
            split at found
            · contradiction
            · split at found <;> cases found
          · contradiction

/-- Skips blanks and a colon. -/
def expectColon (text : Bytes) : Except Failure Bytes :=
  match skipBlanks text with
  | [] => .error .cutOff
  | first :: rest => if first = colon then .ok rest else .error .illFormed

theorem length_of_expectColon {text rest : Bytes} (found : expectColon text = .ok rest) :
    rest.length < text.length := by
  unfold expectColon at found
  split at found
  · contradiction
  · next first tail blanks =>
      split at found
      · cases found
        exact length_of_skipBlanks blanks
      · contradiction

end RegisterMachine.Json
