import RegisterMachine.Proofs.Json.Soundness

/-!
Contract: a key that is read stands spelled in the text.

The bytes of a key are gathered from visible bytes and from escapes, and only
the whole of them has to be UTF-8. An escape stands for whole characters, and
the first byte of a character never continues another one. So the bytes between
two escapes are whole characters as well, and the key is spelled character by
character. A record that is gathered has members with such keys.

Owns: what the reading of escapes, strings, keys and records has met when it
succeeds.
Does not own: that every spelling is read (`Proofs.Json.Tokens`), nor every
record (`Proofs.Json.Recognition`).
-/

namespace RegisterMachine.Json

open Mark

variable {text rest body : Bytes}

/-! ## Characters in bytes -/

theorem eq_of_utf8EncodeChar_append {character other : Char} {more others : Bytes}
    (same : String.utf8EncodeChar character ++ more = String.utf8EncodeChar other ++ others) :
    character = other ∧ more = others := by
  have decoded := congrArg (fun bytes => bytes.toByteArray.utf8DecodeChar? 0) same
  simp only [List.toByteArray_append, ByteArray.utf8DecodeChar?_utf8EncodeChar_append,
    Option.some.injEq] at decoded
  rw [decoded] at same
  exact ⟨decoded, List.append_cancel_left same⟩

/-- Only the first byte of a character can begin one. -/
theorem exists_utf8EncodeChar_eq (character : Char) :
    ∃ byte continuation, String.utf8EncodeChar character = byte :: continuation ∧
      byte.IsUTF8FirstByte ∧ ∀ other ∈ continuation, ¬ other.IsUTF8FirstByte := by
  have begins := fun index (inside : index < (String.utf8EncodeChar character).length) =>
    @UInt8.isUTF8FirstByte_getElem_utf8EncodeChar character index inside
  obtain ⟨byte, continuation, isText⟩ :=
    List.exists_cons_of_ne_nil (@String.utf8EncodeChar_ne_nil character)
  rw [isText] at begins
  refine ⟨byte, continuation, isText, (begins 0 (Nat.succ_pos _)).mpr rfl, ?_⟩
  intro other member isFirst
  obtain ⟨index, inside, rfl⟩ := List.getElem_of_mem member
  exact absurd ((begins (index + 1) (Nat.succ_lt_succ inside)).mp isFirst) (Nat.succ_ne_zero index)

/-! ## Escapes -/

theorem lt_of_hexValue? {byte : UInt8} {value : Nat} (known : hexValue? byte = some value) :
    value < 16 := by
  unfold hexValue? at known
  simp only [isDigit, digitValue, Bool.and_eq_true, decide_eq_true_eq, UInt8.le_iff_toNat_le,
    UInt8.reduceToNat] at known
  split at known
  · cases known
    omega
  · split at known
    · cases known
      omega
    · split at known
      · cases known
        omega
      · contradiction

theorem lt_of_hexText {value : Nat} {digits : Bytes} (hex : HexText value digits) :
    value < 0x10000 := by
  cases hex with
  | digits isFirst isSecond isThird isFourth =>
      have first := lt_of_hexValue? isFirst
      have second := lt_of_hexValue? isSecond
      have third := lt_of_hexValue? isThird
      have fourth := lt_of_hexValue? isFourth
      omega

theorem toNat_ofNat_of_isValidChar {code : Nat} (valid : code.isValidChar) :
    (Char.ofNat code).toNat = code := by
  rw [Char.ofNat, dif_pos valid]
  rfl

theorem exists_of_readTrailing {leading : Nat} {bytes : Bytes}
    (read : readTrailing leading text = .ok (bytes, rest)) :
    ∃ trailing digits, text = backslash :: letter 'u' :: (digits ++ rest) ∧
      HexText trailing digits ∧ (0xdc00 ≤ trailing ∧ trailing ≤ 0xdfff) ∧
      bytes = encodeCode (joinSurrogates leading trailing) := by
  unfold readTrailing at read
  split at read
  · contradiction
  · split at read
    · next isBackslash =>
        split at read
        · contradiction
        · split at read
          · next isLetter =>
              split at read
              · contradiction
              · next code after hexRead =>
                  split at read
                  · next range =>
                      simp only [Except.ok.injEq, Prod.mk.injEq] at read
                      obtain ⟨rfl, rfl⟩ := read
                      obtain ⟨digits, rfl, hex⟩ := exists_of_readHex hexRead
                      rw [isBackslash, isLetter]
                      exact ⟨code, digits, rfl, hex, range, rfl⟩
                  · contradiction
          · contradiction
    · contradiction

theorem exists_of_readCode {bytes : Bytes} (read : readCode text = .ok (bytes, rest)) :
    ∃ character digits, text = digits ++ rest ∧ bytes = String.utf8EncodeChar character ∧
      SpellsCharacter character (backslash :: letter 'u' :: digits) := by
  unfold readCode at read
  split at read
  · contradiction
  · next code after hexRead =>
      obtain ⟨digits, rfl, hex⟩ := exists_of_readHex hexRead
      have basic := lt_of_hexText hex
      split at read
      · contradiction
      · next noTrailing =>
          split at read
          · next leadingRange =>
              obtain ⟨trailing, others, rfl, isSecond, trailingRange, isText⟩ :=
                exists_of_readTrailing read
              have valid : (joinSurrogates code trailing).isValidChar := by
                unfold joinSurrogates Nat.isValidChar
                omega
              refine ⟨Char.ofNat (joinSurrogates code trailing),
                digits ++ backslash :: letter 'u' :: others, ?_, isText,
                .surrogates hex isSecond leadingRange trailingRange
                  (toNat_ofNat_of_isValidChar valid)⟩
              rw [List.append_assoc]
              rfl
          · next noLeading =>
              cases read
              have valid : code.isValidChar := by
                unfold Nat.isValidChar
                omega
              refine ⟨Char.ofNat code, digits, rfl, rfl, .code ?_⟩
              rw [toNat_ofNat_of_isValidChar valid]
              exact hex

/-- What follows a backslash spells one character with it. -/
theorem exists_of_readEscape {bytes : Bytes} (read : readEscape text = .ok (bytes, rest)) :
    ∃ character escape, text = escape ++ rest ∧ bytes = String.utf8EncodeChar character ∧
      SpellsCharacter character (backslash :: escape) := by
  unfold readEscape at read
  split at read
  · contradiction
  · next first tail =>
      split at read
      · next meant known =>
          cases read
          have isAscii := isAscii_of_shortEscape known
          have valid : meant.toNat.isValidChar := by
            unfold Nat.isValidChar
            omega
          have means := toNat_ofNat_of_isValidChar valid
          exact ⟨Char.ofNat meant.toNat, [first], rfl,
            (utf8EncodeChar_of_shortEscape known means).symm, .short known means⟩
      · split at read
        · next isCode =>
            obtain ⟨character, digits, rfl, isText, spelled⟩ := exists_of_readCode read
            rw [isCode]
            exact ⟨character, letter 'u' :: digits, rfl, isText, spelled⟩
        · contradiction

/-! ## Strings -/

/-- The bytes that the text between quotes stands for. An escape stands for a character, but the
bytes between escapes need not make up any. -/
inductive Renders : Bytes → Bytes → Prop where
  | done : Renders [] []
  | visible {byte : UInt8} {meant more : Bytes} (isVisible : IsVisible byte)
      (goesOn : Renders meant more) : Renders (byte :: meant) (byte :: more)
  | escaped {character : Char} {escape meant more : Bytes}
      (spelled : SpellsCharacter character (backslash :: escape)) (goesOn : Renders meant more) :
      Renders (String.utf8EncodeChar character ++ meant) (backslash :: (escape ++ more))

theorem exists_of_readBytes {done bytes : Array UInt8}
    (read : readBytes done text = .ok (bytes, rest)) :
    ∃ (meant : Bytes) (body : Bytes), bytes = done ++ meant ∧ text = body ++ quote :: rest ∧ Renders meant body := by
  fun_induction readBytes done text
  case case2 =>
    cases read
    exact ⟨[], [], Array.appendList_nil.symm, rfl, .done⟩
  case case4 =>
    rename_i escaped _ inductionHypothesis
    obtain ⟨character, escape, rfl, rfl, spelled⟩ := exists_of_readEscape escaped
    obtain ⟨meant, body, rfl, rfl, renders⟩ := inductionHypothesis read
    refine ⟨_, _, appendList_assoc _ _ _, ?_, .escaped spelled renders⟩
    rw [List.cons_append, List.append_assoc]
  case case6 =>
    rename_i notQuote notBackslash noControl inductionHypothesis
    obtain ⟨meant, body, rfl, rfl, renders⟩ := inductionHypothesis read
    exact ⟨_ :: meant, _ :: body, Array.appendList_cons.symm, rfl,
      .visible ⟨noControl, notQuote, notBackslash⟩ renders⟩
  all_goals contradiction

/-- An escape begins a character, so bytes that continue one stand for themselves. -/
theorem exists_of_renders_append {continuation others : Bytes}
    (continues : ∀ byte ∈ continuation, ¬ byte.IsUTF8FirstByte)
    (renders : Renders (continuation ++ others) body) :
    ∃ more, body = continuation ++ more ∧ Renders others more := by
  induction continuation generalizing body with
  | nil => exact ⟨body, rfl, renders⟩
  | cons byte more inductionHypothesis =>
      generalize isMeant : byte :: more ++ others = meant at renders
      cases renders with
      | done => contradiction
      | visible _ goesOn =>
          cases isMeant
          obtain ⟨left, rfl, later⟩ := inductionHypothesis
            (fun other member => continues other (List.mem_cons_of_mem _ member)) goesOn
          exact ⟨left, rfl, later⟩
      | @escaped character _ _ _ _ _ =>
          obtain ⟨first, tail, isText, begins, _⟩ := exists_utf8EncodeChar_eq character
          rw [isText] at isMeant
          have same := (List.cons.inj isMeant).1
          rw [← same] at begins
          exact absurd begins (continues byte List.mem_cons_self)

/-- A character whose first byte is visible needs no escape. -/
theorem spellsCharacter_of_isVisible {character : Char} {byte : UInt8} {continuation : Bytes}
    (isText : String.utf8EncodeChar character = byte :: continuation)
    (isVisible : IsVisible byte) :
    SpellsCharacter character (String.utf8EncodeChar character) := by
  refine .plain ?_ ?_ ?_
  · by_cases isAscii : character.toNat < 128
    · rw [utf8EncodeChar_of_isAscii isAscii] at isText
      cases isText
      have noControl := isVisible.noControl
      rw [UInt8.lt_iff_toNat_lt, toNat_letter isAscii] at noControl
      exact Nat.not_lt.mp noControl
    · omega
  · rintro rfl
    cases isText
    exact isVisible.notQuote rfl
  · rintro rfl
    cases isText
    exact isVisible.notBackslash rfl

/-- Text that stands for whole characters spells them one by one. -/
theorem spells_of_renders {characters : List Char}
    (renders : Renders (characters.flatMap String.utf8EncodeChar) body) :
    Spells characters body := by
  induction characters generalizing body with
  | nil =>
      generalize isMeant : [].flatMap String.utf8EncodeChar = meant at renders
      cases renders with
      | done => exact .done
      | visible => contradiction
      | escaped =>
          have empty := List.append_eq_nil_iff.mp isMeant.symm
          exact absurd empty.1 String.utf8EncodeChar_ne_nil
  | cons character others inductionHypothesis =>
      rw [List.flatMap_cons] at renders
      generalize isMeant : String.utf8EncodeChar character ++ _ = meant at renders
      cases renders with
      | done =>
          have empty := List.append_eq_nil_iff.mp isMeant
          exact absurd empty.1 String.utf8EncodeChar_ne_nil
      | visible isVisible goesOn =>
          obtain ⟨first, continuation, isText, _, continues⟩ := exists_utf8EncodeChar_eq character
          rw [isText] at isMeant
          obtain ⟨rfl, rfl⟩ := List.cons.inj isMeant
          obtain ⟨left, rfl, later⟩ := exists_of_renders_append continues goesOn
          have spells := Spells.character (spellsCharacter_of_isVisible isText isVisible)
            (inductionHypothesis later)
          rwa [isText] at spells
      | escaped spelled goesOn =>
          obtain ⟨rfl, rfl⟩ := eq_of_utf8EncodeChar_append isMeant
          exact .character spelled (inductionHypothesis goesOn)

theorem encode_of_fromUTF8? {meant : Bytes} {key : String}
    (decoded : String.fromUTF8? ⟨meant.toArray⟩ = some key) : Text.encode key = meant := by
  unfold String.fromUTF8? at decoded
  split at decoded
  · cases decoded
    have bytes := Text.toArray_encode (String.fromUTF8 ⟨meant.toArray⟩ ‹_›)
    exact congrArg (fun array => array.data.toList) bytes
  · contradiction

/-- A key that is read stands spelled before its closing quote. -/
theorem exists_of_readString {key : String} (read : readString text = .ok (key, rest)) :
    ∃ body, text = body ++ quote :: rest ∧ Spells key.toList body := by
  unfold readString at read
  split at read
  · contradiction
  · next bytes after found =>
      split at read
      · next string decoded =>
          cases read
          obtain ⟨meant, body, rfl, rfl, renders⟩ := exists_of_readBytes found
          have isArray : #[] ++ meant = meant.toArray := List.toArray_appendList [] meant
          rw [isArray] at decoded
          have isMeant := encode_of_fromUTF8? decoded
          rw [← isMeant] at renders
          exact ⟨body, rfl, spells_of_renders renders⟩
      · contradiction

/-! ## Values and members -/

section
variable {A : Type}

/-- A reader that succeeds has met a value. -/
def MeetsValue (reader : Reader A) : Prop :=
  ∀ ⦃text rest : Bytes⦄ ⦃read : A⦄, reader text = .ok (read, rest) → StartsWithValue rest text

/-- A reader that succeeds has met what follows a key: a colon and a value. -/
def MeetsMember (reader : Reader A) : Prop :=
  ∀ ⦃text rest : Bytes⦄ ⦃read : A⦄, reader text = .ok (read, rest) →
    ∃ blanks value, text = blanks ++ colon :: value ∧ Blanks blanks ∧ StartsWithValue rest value

theorem meetsValue_readNatural (expected : Expected) (bound : Nat) :
    MeetsValue (readNatural expected bound) := by
  intro text rest value read
  unfold readNatural at read
  split at read
  · contradiction
  · next found =>
      obtain ⟨blanks, rfl, areBlanks⟩ := exists_of_skipBlanks found
      split at read
      · split at read
        · contradiction
        · next number after numbered =>
            split at read
            · contradiction
            · cases read
              unfold readNumber at numbered
              split at numbered
              · contradiction
              · next parts left scanned =>
                  obtain ⟨written, isText, isNumber⟩ := NumberParts.exists_of_scan scanned
                  cases valued : parts.value with
                  | error failure =>
                      rw [valued] at numbered
                      contradiction
                  | ok _ =>
                      rw [valued] at numbered
                      cases numbered
                      rw [isText]
                      exact .value areBlanks (.scalar (.number isNumber))
      · contradiction

theorem meetsValue_readWord : MeetsValue readWord := by
  intro text rest word read
  unfold readWord at read
  split at read
  · contradiction
  · next natural =>
      cases read
      exact meetsValue_readNatural _ _ natural

theorem meetsMember_readOnce {reader : Reader A} (meets : MeetsValue reader) (key : String)
    (met : Bool) : MeetsMember (readOnce key met reader) := by
  intro text rest value read
  unfold readOnce at read
  split at read
  · contradiction
  · unfold readMember at read
    split at read
    · contradiction
    · next colonFound =>
        obtain ⟨blanks, isText, areBlanks⟩ := exists_of_expectColon colonFound
        exact ⟨blanks, _, isText, areBlanks, meets read⟩

theorem exists_of_skipMember (skipped : skipMember text = .ok rest) :
    ∃ blanks value, text = blanks ++ colon :: value ∧ Blanks blanks ∧
      StartsWithValue rest value := by
  unfold skipMember at skipped
  split at skipped
  · contradiction
  · next colonFound =>
      obtain ⟨blanks, isText, areBlanks⟩ := exists_of_expectColon colonFound
      exact ⟨blanks, _, isText, areBlanks, startsWithValue_of_skipValue skipped⟩

theorem exists_of_readKey {key : String} (read : readKey text = .ok (key, rest)) :
    ∃ label, text = quote :: (label ++ quote :: rest) ∧ Spells key.toList label := by
  unfold readKey at read
  split at read
  · contradiction
  · split at read
    · next isQuote =>
        obtain ⟨label, rfl, spells⟩ := exists_of_readString read
        rw [isQuote]
        exact ⟨label, rfl, spells⟩
    · contradiction

/-- Members that have been gathered stand in the text, with keys that are spelled there. -/
theorem exists_of_readMembers {gatherer : Gatherer A} {gathered final : A} {first : Bool}
    (meets : ∀ gathered key, MeetsMember (gatherer.gather gathered key))
    (read : readMembers gatherer gathered first text = .ok (final, rest)) :
    ∃ labelled members written, text = written ++ rest ∧
      List.Forall₂ SpellsMember labelled members ∧ Written (.members first labelled) written := by
  fun_induction readMembers gatherer gathered first text
  case case2 =>
    rename_i found
    cases read
    obtain ⟨blanks, rfl, areBlanks⟩ := exists_of_next_finish found
    exact ⟨[], [], blanks ++ [closeBrace], by rw [List.append_assoc]; rfl, .nil,
      .noMembers areBlanks⟩
  case case5 =>
    rename_i found key _ keyRead _ _ gathers inductionHypothesis
    obtain ⟨gap, rfl, isGap⟩ := exists_of_next_entry found
    obtain ⟨label, rfl, spells⟩ := exists_of_readKey keyRead
    obtain ⟨before, after, rfl, blanksBefore, starts⟩ := meets _ _ gathers
    obtain ⟨labelled, members, written, rfl, spelled, isMore⟩ := inductionHypothesis read
    cases starts with
    | @value value blanks valueText areBlanks isValue =>
        refine ⟨(label, value) :: labelled, (key, value) :: members, _, ?_,
          .cons ⟨spells, rfl⟩ spelled,
          .member isGap (stringBody_of_spells spells) blanksBefore areBlanks isValue isMore⟩
        simp only [List.append_assoc, List.cons_append]
  all_goals contradiction

end

end RegisterMachine.Json
