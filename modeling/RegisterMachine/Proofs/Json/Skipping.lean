import RegisterMachine.Proofs.Json.Steps
import RegisterMachine.Proofs.Json.Tokens

/-!
Contract: a written value is skipped as a whole.

Between two values stand blanks, commas and colons, and the first byte of a
value is none of these. So the walk over a text always stands either before a
value or between two entries, and an induction on the grammar takes it through
values that are nested to any depth.

Owns: gaps between entries, first bytes of values, skipping.
Does not own: values that are read (`Proofs.Json.Recognition`).
-/

namespace RegisterMachine.Json

open Mark

variable {first : Bool} {blanks gap text rest : Bytes} {byte : UInt8}
variable {container : Container} {value : Value}

/-! ## Blanks and gaps -/

theorem skipBlanks_append (areBlanks : Blanks blanks) (text : Bytes) :
    skipBlanks (blanks ++ text) = skipBlanks text :=
  List.dropWhile_append_of_pos areBlanks

theorem skipBlanks_mark (areBlanks : Blanks blanks) (notBlank : isBlank byte = false)
    (rest : Bytes) : skipBlanks (blanks ++ byte :: rest) = byte :: rest := by
  rw [skipBlanks_append areBlanks]
  exact skipBlanks_of_not_isBlank notBlank

theorem next_closes (areBlanks : Blanks blanks) (container : Container) (first : Bool)
    (rest : Bytes) :
    next container first (blanks ++ container.closingMark :: rest) = .ok (.finish rest) := by
  have notBlank : isBlank container.closingMark = false := by cases container <;> rfl
  simp only [next, skipBlanks_mark areBlanks notBlank, if_true]

theorem next_gap (isGap : Gap first gap) (begins : Begins container byte) (rest : Bytes) :
    next container first (gap ++ byte :: rest) = .ok (.entry (byte :: rest)) := by
  cases isGap with
  | first areBlanks =>
      simp only [next, skipBlanks_mark areBlanks begins.notBlank, begins.notClosing, if_false,
        if_true]
  | later blanksBefore blanksAfter =>
      have notClosing : comma ≠ container.closingMark := by cases container <;> decide
      have notBlank : isBlank comma = false := rfl
      rw [List.append_assoc, List.cons_append]
      simp only [next, skipBlanks_mark blanksBefore notBlank, notClosing, if_false, if_true,
        Bool.false_eq_true, nextAfterComma, skipBlanks_mark blanksAfter begins.notBlank,
        begins.notClosing]

theorem expectColon_blanks (areBlanks : Blanks blanks) (rest : Bytes) :
    expectColon (blanks ++ colon :: rest) = .ok rest := by
  have notBlank : isBlank colon = false := rfl
  simp only [expectColon, skipBlanks_mark areBlanks notBlank, if_true]

/-! ## First bytes -/

inductive Kind where
  | null
  | boolean (value : Bool)
  | number
  | string
  | list
  | record
deriving DecidableEq

def Value.kind : Value → Kind
  | .null => .null
  | .boolean value => .boolean value
  | .number _ => .number
  | .string _ => .string
  | .list _ => .list
  | .record _ => .record

/-- The kind of the values that begin with this byte. -/
def Kind.ofFirst? (byte : UInt8) : Option Kind :=
  if byte = minus ∨ isDigit byte then some .number
  else if byte = letter 'n' then some .null
  else if byte = letter 't' then some (.boolean true)
  else if byte = letter 'f' then some (.boolean false)
  else if byte = quote then some .string
  else if byte = openBracket then some .list
  else if byte = openBrace then some .record
  else none

theorem exists_first_of_written (written : Written (.value value) text) :
    ∃ byte tail, text = byte :: tail ∧ Kind.ofFirst? byte = some value.kind := by
  cases written with
  | scalar isScalar =>
      cases isScalar with
      | null => exact ⟨_, _, rfl, rfl⟩
      | true => exact ⟨_, _, rfl, rfl⟩
      | false => exact ⟨_, _, rfl, rfl⟩
      | number isNumber =>
          obtain ⟨byte, tail, isText, begins⟩ := NumberParts.exists_first_of_numberText isNumber
          exact ⟨byte, tail, isText, if_pos begins⟩
      | string _ => exact ⟨_, _, rfl, rfl⟩
  | list _ => exact ⟨_, _, rfl, rfl⟩
  | record _ => exact ⟨_, _, rfl, rfl⟩

/-- No value begins with a mark that stands between values. -/
theorem begins_of_first {kind : Kind} (first : Kind.ofFirst? byte = some kind)
    (container : Container) : Begins container byte where
  notBlank := by
    rw [Bool.eq_false_iff]
    intro blank
    simp only [isBlank, Bool.or_eq_true, beq_iff_eq] at blank
    rcases blank with ((rfl | rfl) | rfl) | rfl <;> contradiction
  notClosing := by
    rintro rfl
    cases container <;> contradiction

theorem skipBlanks_first (areBlanks : Blanks blanks) {kind : Kind}
    (first : Kind.ofFirst? byte = some kind) (rest : Bytes) :
    skipBlanks (blanks ++ byte :: rest) = byte :: rest :=
  skipBlanks_mark areBlanks (begins_of_first first .list).notBlank rest

/-! ## Skipping -/

theorem ofOpening?_of_scalar (isScalar : ScalarText value text)
    (first : Kind.ofFirst? byte = some value.kind) : Container.ofOpening? byte = none := by
  unfold Container.ofOpening?
  split
  · next isOpening =>
      rw [isOpening] at first
      have isList : Kind.list = value.kind := Option.some.inj first
      cases isScalar <;> cases isList
  · split
    · next isOpening =>
        rw [isOpening] at first
        have isRecord : Kind.record = value.kind := Option.some.inj first
        cases isScalar <;> cases isRecord
    · rfl

theorem next_written (isGap : Gap first gap) (written : Written (.value value) text)
    (rest : Bytes) : next .list first (gap ++ (text ++ rest)) = .ok (.entry (text ++ rest)) := by
  obtain ⟨byte, tail, rfl, isFirst⟩ := exists_first_of_written written
  exact next_gap isGap (begins_of_first isFirst .list) _

/-- What skipping a piece comes to, whichever containers are open around it. -/
def Piece.Skipped : Piece → Bytes → Prop
  | .value _, text => ∀ {blanks : Bytes} (containers : List Container) {rest : Bytes},
      Blanks blanks → Ends rest →
      skipFrom .value containers (blanks ++ (text ++ rest)) =
        skipFrom (.entry false) containers rest
  | .elements first _, text => ∀ (outer : List Container) (rest : Bytes),
      skipFrom (.entry first) (.list :: outer) (text ++ rest) = skipFrom (.entry false) outer rest
  | .members first _, text => ∀ (outer : List Container) (rest : Bytes),
      skipFrom (.entry first) (.record :: outer) (text ++ rest) = skipFrom (.entry false) outer rest

theorem blanks_nil : Blanks [] := by
  intro byte member
  contradiction

theorem skipped_of_written {piece : Piece} (written : Written piece text) :
    piece.Skipped text := by
  induction written with
  | @scalar value text isScalar =>
      intro blanks containers rest areBlanks ends
      have skipped := skipScalar_append isScalar ends
      obtain ⟨byte, tail, rfl, first⟩ := exists_first_of_written (.scalar isScalar)
      rw [List.cons_append] at skipped ⊢
      exact skipFrom_scalar (skipBlanks_first areBlanks first _)
        (ofOpening?_of_scalar isScalar first) skipped
  | list _ inductionHypothesis =>
      intro blanks containers rest areBlanks _
      have notBlank : isBlank openBracket = false := rfl
      have found := skipBlanks_mark areBlanks notBlank
      rw [List.cons_append, skipFrom_opening (found _) rfl]
      exact inductionHypothesis containers rest
  | record _ inductionHypothesis =>
      intro blanks containers rest areBlanks _
      have notBlank : isBlank openBrace = false := rfl
      have found := skipBlanks_mark areBlanks notBlank
      rw [List.cons_append, skipFrom_opening (found _) rfl]
      exact inductionHypothesis containers rest
  | noElements areBlanks =>
      intro outer rest
      rw [List.append_assoc]
      exact skipFrom_finish (next_closes areBlanks .list _ rest)
  | noMembers areBlanks =>
      intro outer rest
      rw [List.append_assoc]
      exact skipFrom_finish (next_closes areBlanks .record _ rest)
  | @element first value _ gap text more isGap isValue goesOn skipsValue skipsMore =>
      intro outer rest
      have found := next_written isGap isValue (more ++ rest)
      rw [List.append_assoc, List.append_assoc, skipFrom_entry found rfl]
      have skips := skipsValue (.list :: outer) blanks_nil (ends_elements goesOn rest)
      rw [List.nil_append] at skips
      rw [skips]
      exact skipsMore outer rest
  | @member first label value _ gap before after text more isGap isLabel blanksBefore blanksAfter
      isValue goesOn skipsValue skipsMore =>
      intro outer rest
      have begins : Begins .record quote := ⟨rfl, by decide⟩
      have found := next_gap isGap begins
      have labelled : skipLabel .record
          (quote :: (label ++ quote :: (before ++ colon :: (after ++ (text ++ (more ++ rest)))))) =
          .ok (after ++ (text ++ (more ++ rest))) := by
        simp only [skipLabel, skipKey, if_true, skipString_append isLabel,
          expectColon_blanks blanksBefore]
      have skips := skipsValue (.record :: outer) blanksAfter (ends_members goesOn rest)
      simp only [List.append_assoc, List.cons_append]
      rw [skipFrom_entry (found _) labelled, skips]
      exact skipsMore outer rest

/-- A value of any kind is skipped as a whole. -/
theorem skipValue_written (areBlanks : Blanks blanks) (written : Written (.value value) text)
    (ends : Ends rest) : skipValue (blanks ++ (text ++ rest)) = .ok rest := by
  rw [skipValue, skipped_of_written written [] areBlanks ends]
  exact skipFrom_done

end RegisterMachine.Json
