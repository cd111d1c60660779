import RegisterMachine.Json.Container
import RegisterMachine.Json.Number
import RegisterMachine.Json.Quoted

/-!
Contract: skipping one JSON value of any kind.

A value is skipped by its syntax alone: numbers may be of any size and strings
need not be UTF-8. Lists and records may be nested to any depth, since the
containers that are still open are kept in a list.

Owns: `skipValue`.
Does not own: values that are read (`Json.Value`).
-/

namespace RegisterMachine.Json

open Mark

theorem length_of_skipString {text rest : Bytes} (skipped : skipString text = .ok rest) :
    rest.length < text.length := by
  fun_induction skipString text
  case case1 => contradiction
  case case2 =>
    cases skipped
    exact Nat.lt_succ_self _
  case case3 => contradiction
  case case4 =>
    rename_i escaped _ inductionHypothesis
    have escapeLt := length_of_skipEscape escaped
    have restLt := inductionHypothesis skipped
    simp only [List.length_cons]
    omega
  case case5 => contradiction
  case case6 =>
    rename_i inductionHypothesis
    exact Nat.lt_succ_of_lt (inductionHypothesis skipped)

/-! ## Scalars -/

/-- Skips a number, a string, a truth value or null. -/
def skipScalar (text : Bytes) : Except Failure Bytes :=
  match text with
  | [] => .error .cutOff
  | first :: rest =>
      if first = minus ∨ isDigit first then
        (NumberParts.scan .illFormed text).map fun (_, rest) => rest
      else if first = quote then skipString rest
      else if first = letter 'n' then expectBytes (ascii "ull") rest
      else if first = letter 't' then expectBytes (ascii "rue") rest
      else if first = letter 'f' then expectBytes (ascii "alse") rest
      else .error .illFormed

theorem length_of_expectBytes {expected text rest : Bytes}
    (found : expectBytes expected text = .ok rest) : rest.length ≤ text.length := by
  rw [eq_append_of_expectBytes found, List.length_append]
  exact Nat.le_add_left _ _

theorem length_of_skipScalar {text rest : Bytes} (skipped : skipScalar text = .ok rest) :
    rest.length < text.length := by
  unfold skipScalar at skipped
  split at skipped
  · contradiction
  · next first tail =>
      split at skipped
      · cases scanned : NumberParts.scan .illFormed (first :: tail) with
        | error failure =>
            rw [scanned] at skipped
            contradiction
        | ok found =>
            obtain ⟨parts, after⟩ := found
            rw [scanned] at skipped
            cases skipped
            exact NumberParts.length_of_scan scanned
      · split at skipped
        · exact Nat.lt_succ_of_lt (length_of_skipString skipped)
        · split at skipped
          · exact Nat.lt_succ_of_le (length_of_expectBytes skipped)
          · split at skipped
            · exact Nat.lt_succ_of_le (length_of_expectBytes skipped)
            · split at skipped
              · exact Nat.lt_succ_of_le (length_of_expectBytes skipped)
              · contradiction

/-! ## Values -/

/-- Skips the key of a member and the colon after it. -/
def skipKey (text : Bytes) : Except Failure Bytes :=
  match text with
  | [] => .error .cutOff
  | first :: rest =>
      if first = quote then
        match skipString rest with
        | .error failure => .error failure
        | .ok after => expectColon after
      else
        .error .illFormed

/-- Skips what stands between the start of an entry and its value. -/
def skipLabel (container : Container) (text : Bytes) : Except Failure Bytes :=
  match container with
  | .list => .ok text
  | .record => skipKey text

theorem length_of_skipLabel {container : Container} {text rest : Bytes}
    (skipped : skipLabel container text = .ok rest) : rest.length ≤ text.length := by
  unfold skipLabel at skipped
  split at skipped
  · cases skipped
    exact Nat.le_refl _
  · unfold skipKey at skipped
    split at skipped
    · contradiction
    · split at skipped
      · split at skipped
        · contradiction
        · next after string =>
            have stringLt := length_of_skipString string
            have colonLt := length_of_expectColon skipped
            simp only [List.length_cons]
            omega
      · contradiction

/-- Where a text goes on. -/
inductive Position where
  | value
  /-- Between two entries, or before the first one. -/
  | entry (first : Bool)
deriving DecidableEq, Repr

/-- Between two entries more remains to be done than before the value of the second one. -/
def Position.weight : Position → Nat
  | .value => 0
  | .entry _ => 1

/-- Skips to the end of the outermost of the open containers. -/
def skipFrom (position : Position) (containers : List Container) (text : Bytes) :
    Except Failure Bytes :=
  match position, containers with
  | .value, _ =>
      match _blanks : skipBlanks text with
      | [] => .error .cutOff
      | first :: rest =>
          match Container.ofOpening? first with
          | some container => skipFrom (.entry true) (container :: containers) rest
          | none =>
              match _scalar : skipScalar (first :: rest) with
              | .error failure => .error failure
              | .ok after => skipFrom (.entry false) containers after
  | .entry _, [] => .ok text
  | .entry first, container :: outer =>
      match _found : next container first text with
      | .error failure => .error failure
      | .ok (.finish rest) => skipFrom (.entry false) outer rest
      | .ok (.entry inside) =>
          match _label : skipLabel container inside with
          | .error failure => .error failure
          | .ok value => skipFrom .value (container :: outer) value
termination_by 2 * text.length + position.weight
decreasing_by
  · have blanksLt := length_of_skipBlanks _blanks
    simp only [Position.weight]
    omega
  · have blanksLt := length_of_skipBlanks _blanks
    have scalarLt := length_of_skipScalar _scalar
    rw [List.length_cons] at scalarLt
    simp only [Position.weight]
    omega
  · have restLt := length_of_next_finish _found
    simp only [Position.weight]
    omega
  · have insideLe := length_of_next_entry _found
    have labelLe := length_of_skipLabel _label
    simp only [Position.weight]
    omega

/-- Skips the value at the start of a text. -/
def skipValue (text : Bytes) : Except Failure Bytes := skipFrom .value [] text

theorem length_of_skipFrom {position : Position} {containers : List Container}
    {text rest : Bytes} (skipped : skipFrom position containers text = .ok rest) :
    rest.length ≤ text.length := by
  fun_induction skipFrom position containers text
  case case2 =>
    rename_i blanks _ _ inductionHypothesis
    have restLe := inductionHypothesis skipped
    have blanksLt := length_of_skipBlanks blanks
    omega
  case case4 =>
    rename_i blanks _ _ scalar inductionHypothesis
    have restLe := inductionHypothesis skipped
    have blanksLt := length_of_skipBlanks blanks
    have scalarLt := length_of_skipScalar scalar
    rw [List.length_cons] at scalarLt
    omega
  case case5 =>
    cases skipped
    exact Nat.le_refl _
  case case7 =>
    rename_i found inductionHypothesis
    have restLe := inductionHypothesis skipped
    have finishLt := length_of_next_finish found
    omega
  case case9 =>
    rename_i found _ label inductionHypothesis
    have restLe := inductionHypothesis skipped
    have insideLe := length_of_next_entry found
    have labelLe := length_of_skipLabel label
    omega
  all_goals contradiction

theorem length_of_skipValue {text rest : Bytes} (skipped : skipValue text = .ok rest) :
    rest.length ≤ text.length :=
  length_of_skipFrom skipped

end RegisterMachine.Json
