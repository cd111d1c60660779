import RegisterMachine.Json.Skip
import RegisterMachine.Proofs.Json.Grammar
import RegisterMachine.Text.Utf8

/-!
Contract: numbers and strings are scanned as the grammar says.

A number ends where its digits do, so scanning it takes exactly its text if
nothing that could belong to it follows. A string ends at its quote whatever
follows, and a key is read as the characters that it spells.

Owns: scanning numbers, skipping and reading strings, skipping scalars.
Does not own: lists and records (`Proofs.Json.Recognition`).
-/

namespace RegisterMachine.Json

open Mark

/-! ## Numbers -/

theorem not_isDigit_of_isEnd {byte : UInt8} (ends : isEnd byte = true) :
    isDigit byte = false ∧ byte ≠ point ∧ ¬ (byte = letter 'e' ∨ byte = letter 'E') := by
  simp only [isEnd, isBlank, Bool.or_eq_true, beq_iff_eq] at ends
  rcases ends with (((((rfl | rfl) | rfl) | rfl) | rfl) | rfl) | rfl <;> decide

namespace NumberParts

variable {text rest : Bytes} {digits : List Nat}

/-- The digits before this text end with it. -/
def EndsDigits (rest : Bytes) : Prop := ∀ byte ∈ rest.head?, isDigit byte = false

theorem scanDigits_append (onlyDigits : ∀ byte ∈ text, isDigit byte = true)
    (ends : EndsDigits rest) : scanDigits (text ++ rest) = (text.map digitValue, rest) := by
  rw [scanDigits, List.takeWhile_append_of_pos onlyDigits, List.dropWhile_append_of_pos onlyDigits]
  cases rest with
  | nil => rw [List.takeWhile_nil, List.dropWhile_nil, List.append_nil]
  | cons byte tail =>
      have noDigit := ends byte rfl
      rw [List.takeWhile_cons, List.dropWhile_cons, noDigit]
      simp only [Bool.false_eq_true, if_false, List.append_nil]

theorem exists_digit_of_digitsText (written : DigitsText digits text) :
    ∃ first tail, text = first :: tail ∧ isDigit first = true := by
  obtain ⟨first, tail, rfl⟩ := List.exists_cons_of_ne_nil written.nonempty
  exact ⟨first, tail, rfl, written.onlyDigits first List.mem_cons_self⟩

theorem scanSomeDigits_append (cut : Failure) (written : DigitsText digits text)
    (ends : EndsDigits rest) : scanSomeDigits cut (text ++ rest) = .ok (digits, rest) := by
  have scanned := scanDigits_append written.onlyDigits ends
  rw [← written.values] at scanned
  obtain ⟨first, tail, rfl, isDigit⟩ := exists_digit_of_digitsText written
  rw [List.cons_append] at scanned ⊢
  simp only [scanSomeDigits, isDigit, if_true, scanned]

theorem scanWhole_append (cut : Failure) (isWhole : WholeText digits text)
    (ends : EndsDigits rest) : scanWhole cut (text ++ rest) = .ok (digits, rest) := by
  cases isWhole with
  | zero =>
      cases rest with
      | nil => rfl
      | cons byte tail =>
          show (if isDigit byte then _ else _) = _
          rw [ends byte rfl]
          rfl
  | digits written noZero =>
      have scanned := scanSomeDigits_append cut written ends
      obtain ⟨first, tail, rfl, _⟩ := exists_digit_of_digitsText written
      have notZero : first ≠ zero := fun isZero => noZero (congrArg some isZero)
      rw [List.cons_append] at scanned ⊢
      simp only [scanWhole, notZero, if_false, scanned]

theorem scanFraction_append (cut : Failure) {fraction : Option (List Nat)}
    (isFraction : FractionText fraction text) (ends : EndsDigits rest)
    (noPoint : ∀ byte ∈ rest.head?, byte ≠ point) :
    scanFraction cut (text ++ rest) = .ok (fraction, rest) := by
  cases isFraction with
  | absent =>
      rw [List.nil_append]
      cases rest with
      | nil => rfl
      | cons byte tail => rw [scanFraction, if_neg (noPoint byte rfl)]
  | digits written =>
      rw [List.cons_append, scanFraction, if_pos rfl, scanSomeDigits_append cut written ends]
      rfl

theorem scanSign_append {negative : Bool} {sign : Bytes} (signed : ExponentSign negative sign)
    (written : DigitsText digits text) :
    scanSign (sign ++ (text ++ rest)) = (negative, text ++ rest) := by
  cases signed with
  | absent =>
      obtain ⟨first, tail, rfl, isDigit⟩ := exists_digit_of_digitsText written
      have notMinus : first ≠ minus := ne_of_isDigit isDigit rfl
      have notPlus : first ≠ plus := ne_of_isDigit isDigit rfl
      simp only [List.nil_append, List.cons_append, scanSign, notMinus, notPlus, if_false]
  | plus => rfl
  | minus => rfl

theorem endsDigits_of_ends (ends : Ends rest) : EndsDigits rest :=
  fun byte isFirst => (not_isDigit_of_isEnd (ends byte isFirst)).1

theorem scanExponent_append (cut : Failure) {exponent : Option (Bool × List Nat)}
    (isExponent : ExponentText exponent text) (ends : Ends rest) :
    scanExponent cut (text ++ rest) = .ok (exponent, rest) := by
  cases isExponent with
  | absent =>
      rw [List.nil_append]
      cases rest with
      | nil => rfl
      | cons byte tail => rw [scanExponent, if_neg (not_isDigit_of_isEnd (ends byte rfl)).2.2]
  | digits isMark signed written =>
      rw [List.cons_append, List.append_assoc, scanExponent, if_pos isMark]
      simp only [scanSign_append signed written,
        scanSomeDigits_append cut written (endsDigits_of_ends ends)]
      rfl

/-- What an exponent or the end of a number begins with belongs to no fraction. -/
theorem head_of_exponentText {exponent : Option (Bool × List Nat)}
    (isExponent : ExponentText exponent text) (ends : Ends rest) :
    ∀ byte ∈ (text ++ rest).head?, isDigit byte = false ∧ byte ≠ point := by
  intro byte isFirst
  cases isExponent with
  | absent =>
      have noNumber := not_isDigit_of_isEnd (ends byte isFirst)
      exact ⟨noNumber.1, noNumber.2.1⟩
  | digits isMark _ _ =>
      cases isFirst
      rcases isMark with rfl | rfl <;> decide

theorem endsDigits_of_fractionText {fraction : Option (List Nat)}
    (isFraction : FractionText fraction text) (ends : EndsDigits rest) :
    EndsDigits (text ++ rest) := by
  cases isFraction with
  | absent => exact ends
  | digits _ =>
      intro byte isFirst
      cases isFirst
      rfl

theorem exists_digit_of_wholeText (isWhole : WholeText digits text) :
    ∃ first tail, text = first :: tail ∧ isDigit first = true := by
  cases isWhole with
  | zero => exact ⟨zero, [], rfl, rfl⟩
  | digits written _ => exact exists_digit_of_digitsText written

/-- A number is scanned to its end. -/
theorem scan_append (cut : Failure) {parts : NumberParts} (isNumber : NumberText parts text)
    (ends : Ends rest) : scan cut (text ++ rest) = .ok (parts, rest) := by
  cases isNumber with
  | @parts _ _ _ _ _ wholeText _ _ signed isWhole isFraction isExponent =>
      have afterFraction := head_of_exponentText isExponent ends
      have exponentEnds : EndsDigits _ := fun byte isFirst => (afterFraction byte isFirst).1
      have fractionEnds := endsDigits_of_fractionText isFraction exponentEnds
      have whole := scanWhole_append cut isWhole fractionEnds
      have fraction := scanFraction_append cut isFraction exponentEnds
        fun byte isFirst => (afterFraction byte isFirst).2
      have exponent := scanExponent_append cut isExponent ends
      simp only [List.append_assoc]
      cases signed with
      | absent =>
          obtain ⟨first, tail, rfl, isDigit⟩ := exists_digit_of_wholeText isWhole
          have notMinus : first ≠ minus := ne_of_isDigit isDigit rfl
          rw [List.cons_append] at whole
          simp only [List.nil_append, List.cons_append, scan, notMinus, if_false, whole, fraction,
            exponent]
      | minus =>
          simp only [List.cons_append, List.nil_append, scan, if_true, whole, fraction, exponent]

theorem exists_first_of_numberText {parts : NumberParts} (isNumber : NumberText parts text) :
    ∃ first tail, text = first :: tail ∧ (first = minus ∨ isDigit first = true) := by
  cases isNumber with
  | parts signed isWhole _ _ =>
      cases signed with
      | absent =>
          obtain ⟨first, tail, rfl, isDigit⟩ := exists_digit_of_wholeText isWhole
          exact ⟨first, _, rfl, .inr isDigit⟩
      | minus => exact ⟨minus, _, rfl, .inl rfl⟩

end NumberParts

/-! ## Strings -/

variable {text body rest : Bytes}

theorem readHex_append {value : Nat} {digits : Bytes} (hex : HexText value digits) (rest : Bytes) :
    readHex (digits ++ rest) = .ok (value, rest) := by
  cases hex with
  | digits isFirst isSecond isThird isFourth =>
      simp only [List.cons_append, List.nil_append, readHex, isFirst, isSecond, isThird, isFourth]

theorem skipString_escape {after : Bytes} (skipped : skipEscape text = .ok after) :
    skipString (backslash :: text) = skipString after := by
  have notQuote : backslash ≠ quote := by decide
  rw [skipString, if_neg notQuote, if_pos rfl]
  split
  · next failed => rw [skipped] at failed; contradiction
  · next found =>
      rw [skipped] at found
      cases found
      rfl

/-- A string is skipped with its closing quote. -/
theorem skipString_append (isBody : StringBody body) (rest : Bytes) :
    skipString (body ++ quote :: rest) = .ok rest := by
  induction isBody with
  | done => rw [List.nil_append, skipString, if_pos rfl]
  | visible isVisible _ inductionHypothesis =>
      rw [List.cons_append, skipString, if_neg isVisible.notQuote, if_neg isVisible.notBackslash,
        if_neg isVisible.noControl]
      exact inductionHypothesis
  | @short byte _ more known _ inductionHypothesis =>
      have skipped : skipEscape (byte :: (more ++ quote :: rest)) =
          .ok (more ++ quote :: rest) := by
        rw [skipEscape, known]
        rfl
      rw [List.cons_append, List.cons_append, skipString_escape skipped]
      exact inductionHypothesis
  | @code _ digits more hex _ inductionHypothesis =>
      have skipped : skipEscape (letter 'u' :: (digits ++ (more ++ quote :: rest))) =
          .ok (more ++ quote :: rest) := by
        show (readHex (digits ++ (more ++ quote :: rest))).map _ = _
        rw [readHex_append hex]
        rfl
      rw [List.cons_append, List.cons_append, List.append_assoc, skipString_escape skipped]
      exact inductionHypothesis

/-! ## Keys -/

theorem readBytes_escape {done : Array UInt8} {bytes after : Bytes}
    (read : readEscape text = .ok (bytes, after)) :
    readBytes done (backslash :: text) = readBytes (done ++ bytes) after := by
  have notQuote : backslash ≠ quote := by decide
  conv => lhs; rw [readBytes, if_neg notQuote, if_pos rfl]
  split
  · next failed => rw [read] at failed; contradiction
  · next found =>
      rw [read] at found
      cases found
      rfl

theorem appendList_assoc (done : Array UInt8) (bytes more : Bytes) :
    done ++ bytes ++ more = done ++ (bytes ++ more) := by
  apply Array.ext'
  simp only [Array.toList_appendList, List.append_assoc]

theorem readBytes_visible {bytes : Bytes} (visible : ∀ byte ∈ bytes, IsVisible byte)
    (done : Array UInt8) (rest : Bytes) :
    readBytes done (bytes ++ rest) = readBytes (done ++ bytes) rest := by
  induction bytes generalizing done with
  | nil => rw [List.nil_append, Array.appendList_nil]
  | cons byte more inductionHypothesis =>
      have isVisible := visible byte List.mem_cons_self
      have later := inductionHypothesis
        (fun other member => visible other (List.mem_cons_of_mem _ member)) (done.push byte)
      rw [Array.appendList_cons, ← later]
      conv => lhs; rw [List.cons_append, readBytes, if_neg isVisible.notQuote,
        if_neg isVisible.notBackslash, if_neg isVisible.noControl]

theorem isVisible_of_le {byte : UInt8} (high : 0x80 ≤ byte.toNat) : IsVisible byte where
  noControl := by
    rw [UInt8.lt_iff_toNat_lt]
    exact Nat.not_lt.mpr (Nat.le_trans (by decide) high)
  notQuote := by
    rintro rfl
    contradiction
  notBackslash := by
    rintro rfl
    contradiction

theorem isVisible_letter {character : Char} (isAscii : character.toNat < 128)
    (noControl : 0x20 ≤ character.toNat) (notQuote : character ≠ '"')
    (notBackslash : character ≠ '\\') : IsVisible (letter character) where
  noControl := by
    rw [UInt8.lt_iff_toNat_lt, toNat_letter isAscii]
    exact Nat.not_lt.mpr noControl
  notQuote := letter_ne isAscii (by decide) notQuote
  notBackslash := letter_ne isAscii (by decide) notBackslash

theorem utf8EncodeChar_of_isAscii {character : Char} (isAscii : character.toNat < 128) :
    String.utf8EncodeChar character = [letter character] :=
  if_pos (Nat.le_of_lt_succ isAscii)

/-- The bytes of a character beyond ASCII all have their highest bit set. -/
theorem isVisible_utf8EncodeChar {character : Char} (noControl : 0x20 ≤ character.toNat)
    (notQuote : character ≠ '"') (notBackslash : character ≠ '\\') :
    ∀ byte ∈ String.utf8EncodeChar character, IsVisible byte := by
  intro byte member
  by_cases isAscii : character.toNat < 128
  · rw [utf8EncodeChar_of_isAscii isAscii, List.mem_singleton] at member
    rw [member]
    exact isVisible_letter isAscii noControl notQuote notBackslash
  · apply isVisible_of_le
    have beyond : ¬ character.val.toNat ≤ 127 := fun le => isAscii (Nat.lt_succ_of_le le)
    rw [String.utf8EncodeChar.eq_1, if_neg beyond] at member
    split at member
    · simp only [List.mem_cons, List.not_mem_nil, or_false] at member
      rcases member with rfl | rfl <;> simp only [UInt8.toNat_ofNat'] <;> omega
    · split at member
      · simp only [List.mem_cons, List.not_mem_nil, or_false] at member
        rcases member with rfl | rfl | rfl <;> simp only [UInt8.toNat_ofNat'] <;> omega
      · simp only [List.mem_cons, List.not_mem_nil, or_false] at member
        rcases member with rfl | rfl | rfl | rfl <;> simp only [UInt8.toNat_ofNat'] <;> omega

theorem isAscii_of_shortEscape {byte meant : UInt8} (known : shortEscape? byte = some meant) :
    meant.toNat < 128 := by
  unfold shortEscape? at known
  split at known
  · next itself =>
      cases known
      rcases itself with rfl | rfl | rfl <;> decide
  · repeat
      split at known
      · cases known
        decide
    contradiction

theorem utf8EncodeChar_of_shortEscape {character : Char} {byte meant : UInt8}
    (known : shortEscape? byte = some meant) (means : character.toNat = meant.toNat) :
    String.utf8EncodeChar character = [meant] := by
  have isAscii := isAscii_of_shortEscape known
  rw [← means] at isAscii
  rw [utf8EncodeChar_of_isAscii isAscii, letter, means, UInt8.ofNat_toNat]

theorem readBytes_spelled {character : Char} (spelled : SpellsCharacter character text)
    (done : Array UInt8) (rest : Bytes) :
    readBytes done (text ++ rest) = readBytes (done ++ String.utf8EncodeChar character) rest := by
  cases spelled with
  | plain noControl notQuote notBackslash =>
      exact readBytes_visible (isVisible_utf8EncodeChar noControl notQuote notBackslash) done rest
  | @short byte meant known means =>
      have read : readEscape (byte :: rest) = .ok ([meant], rest) := by
        rw [readEscape, known]
      rw [utf8EncodeChar_of_shortEscape known means]
      exact readBytes_escape read
  | @code digits hex =>
      have noSurrogate := character.valid
      have noTrailing : ¬ (0xdc00 ≤ character.toNat ∧ character.toNat ≤ 0xdfff) := by
        have same : character.toNat = character.val.toNat := rfl
        simp only [UInt32.isValidChar, Nat.isValidChar] at noSurrogate
        omega
      have noLeading : ¬ (0xd800 ≤ character.toNat ∧ character.toNat ≤ 0xdbff) := by
        have same : character.toNat = character.val.toNat := rfl
        simp only [UInt32.isValidChar, Nat.isValidChar] at noSurrogate
        omega
      have read : readCode (digits ++ rest) = .ok (String.utf8EncodeChar character, rest) := by
        simp only [readCode, readHex_append hex, noTrailing, noLeading, if_false, encodeCode,
          Char.ofNat_toNat]
      exact readBytes_escape read
  | @surrogates leading trailing first second isFirst isSecond leadingRange trailingRange joined =>
      have noTrailing : ¬ (0xdc00 ≤ leading ∧ leading ≤ 0xdfff) := by omega
      have code : joinSurrogates leading trailing = character.toNat := joined.symm
      have paired : readTrailing leading (backslash :: letter 'u' :: (second ++ rest)) =
          .ok (String.utf8EncodeChar character, rest) := by
        simp only [readTrailing, if_true, readHex_append isSecond, trailingRange, and_self,
          encodeCode, code, Char.ofNat_toNat]
      have read : readCode (first ++ backslash :: letter 'u' :: (second ++ rest)) =
          .ok (String.utf8EncodeChar character, rest) := by
        simp only [readCode, readHex_append isFirst, noTrailing, leadingRange, and_self, if_false,
          if_true, paired]
      rw [List.cons_append, List.cons_append, List.append_assoc, List.cons_append, List.cons_append]
      exact readBytes_escape read

theorem stringBody_append {bytes more : Bytes} (visible : ∀ byte ∈ bytes, IsVisible byte)
    (goesOn : StringBody more) : StringBody (bytes ++ more) := by
  induction bytes with
  | nil => exact goesOn
  | cons byte others inductionHypothesis =>
      have later := inductionHypothesis fun other member =>
        visible other (List.mem_cons_of_mem _ member)
      exact .visible (visible byte List.mem_cons_self) later

/-- A key can also be skipped as a string. -/
theorem stringBody_of_spells {characters : List Char} (spells : Spells characters body) :
    StringBody body := by
  induction spells with
  | done => exact .done
  | character spelled _ inductionHypothesis =>
      cases spelled with
      | plain noControl notQuote notBackslash =>
          exact stringBody_append (isVisible_utf8EncodeChar noControl notQuote notBackslash)
            inductionHypothesis
      | short known _ => exact .short known inductionHypothesis
      | code hex => exact .code hex inductionHypothesis
      | surrogates isFirst isSecond _ _ _ =>
          rw [List.cons_append, List.cons_append, List.append_assoc]
          exact .code isFirst (.code isSecond inductionHypothesis)

theorem readBytes_spells {characters : List Char} (spells : Spells characters body)
    (done : Array UInt8) (rest : Bytes) :
    readBytes done (body ++ quote :: rest) =
      .ok (done ++ characters.flatMap String.utf8EncodeChar, rest) := by
  induction spells generalizing done with
  | done => rw [List.nil_append, readBytes, if_pos rfl, List.flatMap_nil, Array.appendList_nil]
  | character spelled _ inductionHypothesis =>
      rw [List.append_assoc, readBytes_spelled spelled, inductionHypothesis, List.flatMap_cons,
        appendList_assoc]

/-- A key is read as the characters that it spells. -/
theorem readString_spells {key : String} (spells : Spells key.toList body) (rest : Bytes) :
    readString (body ++ quote :: rest) = .ok (key, rest) := by
  have bytes := readBytes_spells spells #[] rest
  have decoded : String.fromUTF8? ⟨(Text.encode key).toArray⟩ = some key := Text.decode?_encode key
  rw [← Text.encode, List.toArray_appendList, List.nil_append] at bytes
  simp only [readString, bytes, decoded]

/-! ## Scalars -/

/-- A scalar is skipped by its syntax alone. -/
theorem skipScalar_append {value : Value} (isScalar : ScalarText value text) (ends : Ends rest) :
    skipScalar (text ++ rest) = .ok rest := by
  cases isScalar with
  | null => rfl
  | true => rfl
  | false => rfl
  | number written =>
      have scanned := NumberParts.scan_append .illFormed written ends
      obtain ⟨first, tail, rfl, begins⟩ := NumberParts.exists_first_of_numberText written
      rw [List.cons_append] at scanned ⊢
      rw [skipScalar, if_pos begins, scanned]
      rfl
  | @string body written =>
      show skipString (body ++ [quote] ++ rest) = _
      rw [List.append_assoc]
      exact skipString_append written rest

end RegisterMachine.Json
