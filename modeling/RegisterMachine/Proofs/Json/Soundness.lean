import Mathlib.Data.List.TakeWhile
import RegisterMachine.Proofs.Json.Skipping

/-!
Contract: whatever is skipped or read is JSON.

A scanner that succeeds has met a text of the grammar and leaves what stands
behind it. The walk over nested values keeps the containers that are still
open, so what it has met is told of all of them: each of them is closed before
the next one, and the value that was asked for is the outermost.

Owns: what scanning, skipping and the reading of keys have met when they
succeed.
Does not own: that they succeed on all texts of the grammar (`Proofs.Json.Tokens`,
`Proofs.Json.Skipping`).
-/

namespace RegisterMachine.Json

open Mark

variable {text rest inside : Bytes}

/-! ## Numbers -/

namespace NumberParts

variable {cut : Failure} {digits : List Nat}

theorem digitsText_takeWhile {first : UInt8} (isDigit : Mark.isDigit first = true)
    (rest : Bytes) :
    DigitsText (((first :: rest).takeWhile Mark.isDigit).map digitValue)
      ((first :: rest).takeWhile Mark.isDigit) where
  nonempty := by
    rw [List.takeWhile_cons_of_pos isDigit]
    exact List.cons_ne_nil _ _
  onlyDigits _ member := List.mem_takeWhile_imp member
  values := rfl

theorem exists_of_scanSomeDigits (scanned : scanSomeDigits cut text = .ok (digits, rest)) :
    ∃ written, text = written ++ rest ∧ DigitsText digits written := by
  unfold scanSomeDigits at scanned
  split at scanned
  · contradiction
  · next first tail =>
      split at scanned
      · next isDigit =>
          cases scanned
          exact ⟨_, List.takeWhile_append_dropWhile.symm, digitsText_takeWhile isDigit tail⟩
      · contradiction

theorem exists_of_scanWhole (scanned : scanWhole cut text = .ok (digits, rest)) :
    ∃ written, text = written ++ rest ∧ WholeText digits written := by
  unfold scanWhole at scanned
  split at scanned
  · contradiction
  · next first tail =>
      split at scanned
      · next isZero =>
          subst isZero
          split at scanned
          · split at scanned
            · contradiction
            · cases scanned
              exact ⟨[zero], rfl, .zero⟩
          · cases scanned
            exact ⟨[zero], rfl, .zero⟩
      · next notZero =>
          obtain ⟨written, isText, isDigits⟩ := exists_of_scanSomeDigits scanned
          obtain ⟨byte, more, rfl, _⟩ := exists_digit_of_digitsText isDigits
          cases isText
          exact ⟨_, rfl, .digits isDigits fun isZero => notZero (Option.some.inj isZero)⟩

theorem exists_of_scanFraction {fraction : Option (List Nat)}
    (scanned : scanFraction cut text = .ok (fraction, rest)) :
    ∃ written, text = written ++ rest ∧ FractionText fraction written := by
  unfold scanFraction at scanned
  split at scanned
  · cases scanned
    exact ⟨[], rfl, .absent⟩
  · next first tail =>
      split at scanned
      · next isPoint =>
          subst isPoint
          cases found : scanSomeDigits cut tail with
          | error failure =>
              rw [found] at scanned
              contradiction
          | ok pair =>
              rw [found] at scanned
              cases scanned
              obtain ⟨written, rfl, isDigits⟩ := exists_of_scanSomeDigits found
              exact ⟨point :: written, rfl, .digits isDigits⟩
      · cases scanned
        exact ⟨[], rfl, .absent⟩

theorem exists_scanSign (text : Bytes) :
    ∃ sign, text = sign ++ (scanSign text).2 ∧ ExponentSign (scanSign text).1 sign := by
  unfold scanSign
  split
  · exact ⟨[], rfl, .absent⟩
  · split
    · next isMinus => exact ⟨[minus], by rw [isMinus]; rfl, .minus⟩
    · split
      · next isPlus => exact ⟨[plus], by rw [isPlus]; rfl, .plus⟩
      · exact ⟨[], rfl, .absent⟩

theorem exists_of_scanExponent {exponent : Option (Bool × List Nat)}
    (scanned : scanExponent cut text = .ok (exponent, rest)) :
    ∃ written, text = written ++ rest ∧ ExponentText exponent written := by
  unfold scanExponent at scanned
  split at scanned
  · cases scanned
    exact ⟨[], rfl, .absent⟩
  · next first tail =>
      split at scanned
      · next isMark =>
          obtain ⟨sign, isTail, signed⟩ := exists_scanSign tail
          simp only at scanned
          cases found : scanSomeDigits cut (scanSign tail).2 with
          | error failure =>
              rw [found] at scanned
              contradiction
          | ok pair =>
              rw [found] at scanned
              cases scanned
              obtain ⟨written, unsigned, isDigits⟩ := exists_of_scanSomeDigits found
              refine ⟨first :: (sign ++ written), ?_, .digits isMark signed isDigits⟩
              rw [List.cons_append, List.append_assoc, ← unsigned, ← isTail]
      · cases scanned
        exact ⟨[], rfl, .absent⟩

/-- What has been scanned is a number. -/
theorem exists_of_scan {parts : NumberParts} (scanned : scan cut text = .ok (parts, rest)) :
    ∃ written, text = written ++ rest ∧ NumberText parts written := by
  unfold scan at scanned
  split at scanned
  next negative unsigned isSigned =>
  have signed : ∃ sign, text = sign ++ unsigned ∧ SignText negative sign := by
    split at isSigned
    · cases isSigned
      exact ⟨[], rfl, .absent⟩
    · split at isSigned
      · next isMinus =>
          cases isSigned
          exact ⟨[minus], by rw [isMinus]; rfl, .minus⟩
      · cases isSigned
        exact ⟨[], rfl, .absent⟩
  obtain ⟨sign, rfl, isSign⟩ := signed
  split at scanned
  · contradiction
  · next whole =>
      split at scanned
      · contradiction
      · next fraction =>
          split at scanned
          · contradiction
          · next exponent =>
              cases scanned
              obtain ⟨wholeText, rfl, isWhole⟩ := exists_of_scanWhole whole
              obtain ⟨fractionText, rfl, isFraction⟩ := exists_of_scanFraction fraction
              obtain ⟨exponentText, rfl, isExponent⟩ := exists_of_scanExponent exponent
              refine ⟨_, ?_, .parts isSign isWhole isFraction isExponent⟩
              simp only [List.append_assoc]

end NumberParts

/-! ## Strings -/

theorem exists_of_readHex {value : Nat} (read : readHex text = .ok (value, rest)) :
    ∃ digits, text = digits ++ rest ∧ HexText value digits := by
  unfold readHex at read
  split at read
  · split at read
    · next isFirst isSecond isThird isFourth =>
        cases read
        exact ⟨_, rfl, .digits isFirst isSecond isThird isFourth⟩
    · contradiction
  · contradiction

/-- An escape may stand before whatever a string goes on with. -/
theorem exists_of_skipEscape (skipped : skipEscape text = .ok rest) :
    ∃ escape, text = escape ++ rest ∧
      ∀ more, StringBody more → StringBody (backslash :: (escape ++ more)) := by
  unfold skipEscape at skipped
  split at skipped
  · contradiction
  · next first tail =>
      split at skipped
      · next isShort =>
          cases skipped
          obtain ⟨meant, known⟩ := Option.isSome_iff_exists.mp isShort
          exact ⟨[first], rfl, fun more goesOn => .short known goesOn⟩
      · split at skipped
        · next isCode =>
            subst isCode
            cases read : readHex tail with
            | error failure =>
                rw [read] at skipped
                contradiction
            | ok pair =>
                rw [read] at skipped
                cases skipped
                obtain ⟨digits, rfl, hex⟩ := exists_of_readHex read
                exact ⟨letter 'u' :: digits, rfl, fun more goesOn => .code hex goesOn⟩
        · contradiction

/-- What has been skipped as a string is one, with its closing quote. -/
theorem exists_of_skipString (skipped : skipString text = .ok rest) :
    ∃ body, text = body ++ quote :: rest ∧ StringBody body := by
  fun_induction skipString text
  case case2 =>
    cases skipped
    exact ⟨[], rfl, .done⟩
  case case4 =>
    rename_i escaped _ inductionHypothesis
    obtain ⟨escape, rfl, isEscape⟩ := exists_of_skipEscape escaped
    obtain ⟨body, rfl, isBody⟩ := inductionHypothesis skipped
    exact ⟨_, by simp only [List.cons_append, List.append_assoc], isEscape body isBody⟩
  case case6 =>
    rename_i notQuote notBackslash noControl inductionHypothesis
    obtain ⟨body, rfl, isBody⟩ := inductionHypothesis skipped
    exact ⟨_ :: body, rfl, .visible ⟨noControl, notQuote, notBackslash⟩ isBody⟩
  all_goals contradiction

/-! ## Scalars -/

theorem exists_of_skipScalar (skipped : skipScalar text = .ok rest) :
    ∃ value written, text = written ++ rest ∧ ScalarText value written := by
  unfold skipScalar at skipped
  split at skipped
  · contradiction
  · next first tail =>
      split at skipped
      · cases scanned : NumberParts.scan .illFormed (first :: tail) with
        | error failure =>
            rw [scanned] at skipped
            contradiction
        | ok pair =>
            obtain ⟨parts, after⟩ := pair
            rw [scanned] at skipped
            cases skipped
            obtain ⟨written, isText, isNumber⟩ := NumberParts.exists_of_scan scanned
            exact ⟨.number parts, written, isText, .number isNumber⟩
      · split at skipped
        · next isQuote =>
            obtain ⟨body, rfl, isBody⟩ := exists_of_skipString skipped
            refine ⟨.string body, first :: (body ++ [quote]), ?_, ?_⟩
            · rw [List.cons_append, List.append_assoc]
              rfl
            · rw [isQuote]
              exact .string isBody
        · split at skipped
          · next isNull =>
              refine ⟨.null, ascii "null", ?_, .null⟩
              rw [isNull, eq_append_of_expectBytes skipped]
              rfl
          · split at skipped
            · next isTrue =>
                refine ⟨.boolean true, ascii "true", ?_, .true⟩
                rw [isTrue, eq_append_of_expectBytes skipped]
                rfl
            · split at skipped
              · next isFalse =>
                  refine ⟨.boolean false, ascii "false", ?_, .false⟩
                  rw [isFalse, eq_append_of_expectBytes skipped]
                  rfl
              · contradiction

/-! ## Blanks and gaps -/

theorem exists_blanks (text : Bytes) :
    ∃ blanks, text = blanks ++ skipBlanks text ∧ Blanks blanks :=
  ⟨text.takeWhile isBlank, List.takeWhile_append_dropWhile.symm,
    fun _ member => List.mem_takeWhile_imp member⟩

theorem exists_of_skipBlanks {first : UInt8} (found : skipBlanks text = first :: rest) :
    ∃ blanks, text = blanks ++ first :: rest ∧ Blanks blanks := by
  obtain ⟨blanks, isText, areBlanks⟩ := exists_blanks text
  rw [found] at isText
  exact ⟨blanks, isText, areBlanks⟩

theorem exists_of_expectColon (found : expectColon text = .ok rest) :
    ∃ blanks, text = blanks ++ colon :: rest ∧ Blanks blanks := by
  unfold expectColon at found
  split at found
  · contradiction
  · next skipped =>
      split at found
      · next isColon =>
          cases found
          rw [isColon] at skipped
          exact exists_of_skipBlanks skipped
      · contradiction

section
variable {container : Container} {first : Bool}

theorem exists_of_next_finish (found : next container first text = .ok (.finish rest)) :
    ∃ blanks, text = blanks ++ container.closingMark :: rest ∧ Blanks blanks := by
  unfold next at found
  split at found
  · contradiction
  · next skipped =>
      split at found
      · next isClosing =>
          cases found
          rw [isClosing] at skipped
          exact exists_of_skipBlanks skipped
      · split at found
        · cases found
        · split at found
          · unfold nextAfterComma at found
            split at found
            · contradiction
            · split at found <;> cases found
          · contradiction

theorem exists_of_nextAfterComma (found : nextAfterComma container text = .ok (.entry inside)) :
    ∃ blanks, text = blanks ++ inside ∧ Blanks blanks := by
  unfold nextAfterComma at found
  split at found
  · contradiction
  · next skipped =>
      split at found
      · contradiction
      · cases found
        exact exists_of_skipBlanks skipped

theorem exists_of_next_entry (found : next container first text = .ok (.entry inside)) :
    ∃ gap, text = gap ++ inside ∧ Gap first gap := by
  unfold next at found
  split at found
  · contradiction
  · next mark after skipped =>
      obtain ⟨blanks, rfl, areBlanks⟩ := exists_of_skipBlanks skipped
      split at found
      · cases found
      · split at found
        · next isFirst =>
            cases found
            rw [isFirst]
            exact ⟨blanks, rfl, .first areBlanks⟩
        · next notFirst =>
            rw [Bool.not_eq_true] at notFirst
            split at found
            · next isComma =>
                obtain ⟨others, rfl, areOthers⟩ := exists_of_nextAfterComma found
                rw [notFirst, isComma]
                refine ⟨blanks ++ comma :: others, ?_, .later areBlanks areOthers⟩
                rw [List.append_assoc, List.cons_append]
            · contradiction

theorem gap_append {gap blanks : Bytes} (isGap : Gap first gap) (areBlanks : Blanks blanks) :
    Gap first (gap ++ blanks) := by
  cases isGap with
  | first blanksBefore =>
      exact .first (List.forall_mem_append.mpr ⟨blanksBefore, areBlanks⟩)
  | later blanksBefore blanksAfter =>
      rw [List.append_assoc, List.cons_append]
      exact .later blanksBefore (List.forall_mem_append.mpr ⟨blanksAfter, areBlanks⟩)

end

theorem exists_of_skipKey (skipped : skipKey text = .ok rest) :
    ∃ label blanks, text = quote :: (label ++ quote :: (blanks ++ colon :: rest)) ∧
      StringBody label ∧ Blanks blanks := by
  unfold skipKey at skipped
  split at skipped
  · contradiction
  · next first tail =>
      split at skipped
      · next isQuote =>
          split at skipped
          · contradiction
          · next after string =>
              obtain ⟨label, rfl, isLabel⟩ := exists_of_skipString string
              obtain ⟨blanks, rfl, areBlanks⟩ := exists_of_expectColon skipped
              rw [isQuote]
              exact ⟨label, blanks, rfl, isLabel, areBlanks⟩
      · contradiction

/-! ## Nested values -/

/-- The entries that a container goes on with, up to the mark that closes it. -/
inductive EntriesText (first : Bool) : Container → Bytes → Prop where
  | list {elements : List Value} {text : Bytes} (written : Written (.elements first elements) text) :
      EntriesText first .list text
  | record {members : List (Bytes × Value)} {text : Bytes}
      (written : Written (.members first members) text) : EntriesText first .record text

/-- The open containers are closed, the innermost one first, before the rest of the text. -/
inductive Closes (rest : Bytes) : Bool → List Container → Bytes → Prop where
  | done {first : Bool} : Closes rest first [] rest
  | container {first : Bool} {container : Container} {outer : List Container} {text after : Bytes}
      (entries : EntriesText first container text) (goesOn : Closes rest false outer after) :
      Closes rest first (container :: outer) (text ++ after)

/-- A value stands at the start of a text, after blanks and before the rest of it. -/
inductive StartsWithValue (rest : Bytes) : Bytes → Prop where
  | value {value : Value} {blanks text : Bytes} (areBlanks : Blanks blanks)
      (written : Written (.value value) text) : StartsWithValue rest (blanks ++ (text ++ rest))

/-- What stands before the rest of a text if skipping succeeds from this position. -/
def Position.Met (rest : Bytes) : Position → List Container → Bytes → Prop
  | .value, containers, text =>
      ∃ after, StartsWithValue after text ∧ Closes rest false containers after
  | .entry first, containers, text => Closes rest first containers text

section
variable {container : Container} {outer : List Container} {first : Bool} {after : Bytes}

theorem closes_closingMark {blanks : Bytes} (areBlanks : Blanks blanks)
    (goesOn : Closes rest false outer after) :
    Closes rest first (container :: outer) (blanks ++ container.closingMark :: after) := by
  have entries : EntriesText first container (blanks ++ [container.closingMark]) := by
    cases container with
    | list => exact .list (.noElements areBlanks)
    | record => exact .record (.noMembers areBlanks)
  have closes := Closes.container entries goesOn
  rwa [List.append_assoc] at closes

/-- An entry with its label and value, and what closes the containers behind it. -/
theorem closes_entry {gap value : Bytes} (isGap : Gap first gap)
    (labelled : skipLabel container inside = .ok value) (starts : StartsWithValue after value)
    (goesOn : Closes rest false (container :: outer) after) :
    Closes rest first (container :: outer) (gap ++ inside) := by
  cases goesOn with
  | container entries later =>
      cases starts with
      | value areBlanks isValue =>
          cases entries with
          | list isMore =>
              cases labelled
              have closes := Closes.container
                (.list (.element (gap_append isGap areBlanks) isValue isMore)) later
              simpa only [List.append_assoc] using closes
          | record isMore =>
              obtain ⟨label, before, rfl, isLabel, blanksBefore⟩ := exists_of_skipKey labelled
              have closes := Closes.container
                (.record (.member isGap isLabel blanksBefore areBlanks isValue isMore)) later
              simpa only [List.append_assoc, List.cons_append] using closes

end

theorem startsWithValue_opening {byte : UInt8} {container : Container} {blanks after : Bytes}
    (areBlanks : Blanks blanks) (opens : Container.ofOpening? byte = some container)
    (entries : EntriesText true container text) :
    StartsWithValue after (blanks ++ byte :: (text ++ after)) := by
  unfold Container.ofOpening? at opens
  split at opens
  · next isBracket =>
      cases opens
      cases entries with
      | list written =>
          rw [isBracket]
          exact .value areBlanks (.list written)
  · split at opens
    · next isBrace =>
        cases opens
        cases entries with
        | record written =>
            rw [isBrace]
            exact .value areBlanks (.record written)
    · contradiction

/-- The walk has met what closes all open containers. -/
theorem met_of_skipFrom {position : Position} {containers : List Container}
    (skipped : skipFrom position containers text = .ok rest) :
    position.Met rest containers text := by
  fun_induction skipFrom position containers text
  case case2 =>
    rename_i found _ opens inductionHypothesis
    obtain ⟨blanks, rfl, areBlanks⟩ := exists_of_skipBlanks found
    cases inductionHypothesis skipped with
    | container entries goesOn =>
        exact ⟨_, startsWithValue_opening areBlanks opens entries, goesOn⟩
  case case4 =>
    rename_i found _ after scalar inductionHypothesis
    obtain ⟨blanks, rfl, areBlanks⟩ := exists_of_skipBlanks found
    obtain ⟨value, written, isText, isScalar⟩ := exists_of_skipScalar scalar
    rw [isText]
    exact ⟨after, .value areBlanks (.scalar isScalar), inductionHypothesis skipped⟩
  case case5 =>
    cases skipped
    exact .done
  case case7 =>
    rename_i found inductionHypothesis
    obtain ⟨blanks, rfl, areBlanks⟩ := exists_of_next_finish found
    exact closes_closingMark areBlanks (inductionHypothesis skipped)
  case case9 =>
    rename_i found _ label inductionHypothesis
    obtain ⟨gap, rfl, isGap⟩ := exists_of_next_entry found
    obtain ⟨after, starts, closes⟩ := inductionHypothesis skipped
    exact closes_entry isGap label starts closes
  all_goals contradiction

theorem startsWithValue_of_skipValue (skipped : skipValue text = .ok rest) :
    StartsWithValue rest text := by
  obtain ⟨after, starts, closes⟩ := met_of_skipFrom skipped
  cases closes
  exact starts

end RegisterMachine.Json
