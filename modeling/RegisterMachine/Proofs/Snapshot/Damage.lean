import Mathlib.Data.List.TakeWhile
import RegisterMachine.Proofs.Snapshot.RoundTrip

/-!
Contract: a damaged snapshot is refused, and the failure tells what is wrong.

A written snapshot is a record, so a part that breaks off before its last brace
ends inside the record. Wherever it ends, the first reading wants more: inside
a key or a word such as null it misses the rest of it, and what is left of a
number is a number, after which the list or record is not closed. Bytes behind
the record other than blanks are found when the first reading is done.

Owns: `IsCut`, cut values and members, damaged snapshots.
Does not own: the round trip of whole snapshots (`Proofs.Snapshot.RoundTrip`).
-/

namespace RegisterMachine

namespace Json

open Mark

variable {cut text rest gap : Bytes} {first : Bool} {outer : List Container}

/-! ## Cuts -/

/-- The first text is the second one without some bytes at its end. -/
inductive IsCut : Bytes → Bytes → Prop where
  | here {byte : UInt8} {rest : Bytes} : IsCut [] (byte :: rest)
  | later {byte : UInt8} {cut rest : Bytes} (isCut : IsCut cut rest) :
      IsCut (byte :: cut) (byte :: rest)

theorem isCut_of_ne (begins : cut <+: text) (different : cut ≠ text) : IsCut cut text := by
  induction cut generalizing text with
  | nil =>
      obtain ⟨byte, rest, rfl⟩ := List.exists_cons_of_ne_nil different.symm
      exact .here
  | cons byte cut inductionHypothesis =>
      obtain ⟨more, rfl⟩ := begins
      have shorter : cut ≠ cut ++ more := fun same => different (congrArg (byte :: ·) same)
      exact .later (inductionHypothesis (List.prefix_append cut more) shorter)

namespace IsCut

theorem begins (isCut : IsCut cut text) : cut <+: text := by
  induction isCut with
  | here => exact List.nil_prefix
  | later _ inductionHypothesis => exact List.cons_prefix_cons.mpr ⟨rfl, inductionHypothesis⟩

/-- A cut falls into the first of two texts or into the second one. -/
theorem of_append (isCut : IsCut cut (text ++ rest)) :
    IsCut cut text ∨ ∃ later, cut = text ++ later ∧ IsCut later rest := by
  induction text generalizing cut with
  | nil => exact .inr ⟨cut, rfl, isCut⟩
  | cons byte text inductionHypothesis =>
      cases isCut with
      | here => exact .inl .here
      | later isCut =>
          rcases inductionHypothesis isCut with inText | ⟨later, rfl, inRest⟩
          · exact .inl (.later inText)
          · exact .inr ⟨later, rfl, inRest⟩

theorem ends (isCut : IsCut cut text) (ends : Ends text) : Ends cut := by
  cases isCut with
  | here => nofun
  | later _ => exact ends_cons (ends _ rfl)

end IsCut

/-! ## Cut scalars -/

theorem expectBytes_cut (isCut : IsCut cut text) : expectBytes text cut = .error .cutOff := by
  induction isCut with
  | here => rfl
  | later _ inductionHypothesis => rw [expectBytes, if_pos rfl, inductionHypothesis]

/-- Skipping what is left of the value ends with the text, be it inside the value or behind it. -/
def EndsWithText (text : Bytes) : Prop :=
  ∀ ⦃cut : Bytes⦄, IsCut cut text → ∀ containers : List Container,
    skipFrom .value containers cut = .error .cutOff ∨
      skipFrom .value containers cut = skipFrom (.entry false) containers []

theorem endsWithText_scalar {value : Value} (isScalar : ScalarText value text)
    (cuts : ∀ {cut : Bytes}, IsCut cut text → cut ≠ [] →
      skipScalar cut = .error .cutOff ∨ skipScalar cut = .ok []) : EndsWithText text := by
  intro cut isCut containers
  obtain ⟨byte, tail, rfl, first⟩ := exists_first_of_written (.scalar isScalar)
  have opensNothing := ofOpening?_of_scalar isScalar first
  cases isCut with
  | here => exact .inl (skipFrom_blank rfl)
  | @later _ cut _ isCut =>
      have found := skipBlanks_first blanks_nil first cut
      rcases cuts (.later isCut) (List.cons_ne_nil byte cut) with failed | skipped
      · exact .inl (skipFrom_scalar_error found opensNothing failed)
      · exact .inr (skipFrom_scalar found opensNothing skipped)

theorem endsWithText_null : EndsWithText (ascii "null") := by
  refine endsWithText_scalar .null fun isCut isSome => ?_
  cases isCut with
  | here => exact absurd rfl isSome
  | later isCut => exact .inl (expectBytes_cut isCut)

/-! ## Cut lists -/

theorem next_nil (container : Container) (first : Bool) :
    next container first [] = .error .cutOff := rfl

/-- The text of an entry that is cut in its value, or somewhere behind it. -/
theorem skipFrom_cut_element {value : Value} (isGap : Gap first gap)
    (onlyGap : next .list first gap = .error .cutOff) (isValue : Written (.value value) text)
    (endsWithText : EndsWithText text) (ends : Ends rest)
    (goesOn : ∀ {later : Bytes}, IsCut later rest →
      skipFrom (.entry false) (.list :: outer) later = .error .cutOff)
    (isCut : IsCut cut (text ++ rest)) :
    skipFrom (.entry first) (.list :: outer) (gap ++ cut) = .error .cutOff := by
  rcases isCut.of_append with inText | ⟨later, rfl, inRest⟩
  · have ended : skipFrom (.entry false) (.list :: outer) [] = .error .cutOff :=
      skipFrom_next_error (next_nil .list false)
    have skipped := endsWithText inText (.list :: outer)
    rw [ended, or_self] at skipped
    obtain ⟨byte, tail, rfl, isFirst⟩ := exists_first_of_written isValue
    cases inText with
    | here =>
        rw [List.append_nil]
        exact skipFrom_next_error onlyGap
    | @later _ cut _ _ =>
        rw [skipFrom_entry (next_gap isGap (begins_of_first isFirst .list) cut) rfl, skipped]
  · have skipped := skipped_of_written isValue (.list :: outer) blanks_nil (inRest.ends ends)
    rw [List.nil_append] at skipped
    rw [skipFrom_entry (next_written isGap isValue later) rfl, skipped]
    exact goesOn inRest

/-! ## Cut records -/

theorem readString_cut (visible : ∀ byte ∈ cut, IsVisible byte) :
    readString cut = .error .cutOff := by
  have bytes := readBytes_visible visible #[] []
  rw [List.append_nil] at bytes
  have ended (done : Array UInt8) : readBytes done [] = .error .cutOff := by rw [readBytes]
  rw [ended] at bytes
  simp only [readString, bytes]

section
variable {A : Type} {gatherer : Gatherer A} {gathered : A}

/-- The text of a member that is cut somewhere, or of the members behind it. -/
theorem readMembers_cut_member {key : String} {body value : Bytes} (isGap : Gap first gap)
    (onlyGap : next .record first gap = .error .cutOff) (spells : Spells key.toList body)
    (visible : ∀ byte ∈ body, IsVisible byte)
    (cuts : ∀ {cut : Bytes}, IsCut cut (colon :: value) →
      gatherer.gather gathered key cut = .error .cutOff ∨
        ∃ more, gatherer.gather gathered key cut = .ok (more, []))
    (goesOn : ∀ {later : Bytes}, IsCut later rest →
      ∃ more, gatherer.gather gathered key (colon :: (value ++ later)) = .ok (more, later) ∧
        readMembers gatherer more false later = .error .cutOff)
    (isCut : IsCut cut (quote :: (body ++ quote :: colon :: (value ++ rest)))) :
    readMembers gatherer gathered first (gap ++ cut) = .error .cutOff := by
  have begins : Begins .record quote := ⟨rfl, by decide⟩
  have found (inside : Bytes) := next_gap isGap begins inside
  cases isCut with
  | here =>
      rw [List.append_nil]
      exact readMembers_next_error onlyGap
  | later isCut =>
      rcases isCut.of_append with inKey | ⟨later, rfl, behindKey⟩
      · have unlabelled := readString_cut fun byte member =>
          visible byte (inKey.begins.mem member)
        exact readMembers_key_error (found _) unlabelled
      · cases behindKey with
        | here =>
            rw [List.append_nil]
            exact readMembers_key_error (found _) (readString_cut visible)
        | @later _ later _ behindKey =>
            have labelled : readKey (quote :: (body ++ quote :: later)) = .ok (key, later) :=
              readString_spells spells later
            rw [← List.cons_append] at behindKey
            rcases behindKey.of_append with inValue | ⟨later, rfl, inRest⟩
            · rcases cuts inValue with fails | ⟨more, gathers⟩
              · exact readMembers_gather_error (found _) labelled fails
              · rw [readMembers_entry (found _) labelled gathers]
                exact readMembers_next_error (next_nil .record false)
            · obtain ⟨more, gathers, ended⟩ := goesOn inRest
              rw [readMembers_entry (found _) labelled gathers]
              exact ended

end

theorem skipMember_cut (endsWithText : EndsWithText text) (isCut : IsCut cut (colon :: text)) :
    skipMember cut = .error .cutOff ∨ skipMember cut = .ok [] := by
  cases isCut with
  | here => exact .inl rfl
  | @later _ cut _ isCut =>
      have skipped := endsWithText isCut []
      rw [skipFrom_done] at skipped
      have isColon : expectColon (colon :: cut) = .ok cut := expectColon_blanks blanks_nil cut
      rw [skipMember, isColon]
      exact skipped

end Json

namespace Snapshot

open Json Json.Mark

variable {cut rest text : Bytes} {machine : Machine}

/-! ## Cut values -/

/-- What is left of a number is a number. -/
theorem wholeText_of_isCut {value : Nat} (isCut : IsCut cut (ofNatural value)) (isSome : cut ≠ []) :
    WholeText (cut.map digitValue) cut := by
  have onlyDigits : ∀ byte ∈ cut, isDigit byte = true := fun byte member =>
    isDigit_of_mem_ofNatural (isCut.begins.mem member)
  refine .digits ⟨isSome, onlyDigits, rfl⟩ ?_
  rcases Nat.eq_zero_or_pos value with rfl | positive
  · cases isCut with
    | here => exact absurd rfl isSome
    | later isCut => cases isCut
  · have noZero := head_ofNatural_ne_zero positive
    generalize ofNatural value = written at isCut noZero
    cases isCut with
    | here => exact absurd rfl isSome
    | later _ => exact noZero

theorem endsWithText_ofNatural (value : Nat) : EndsWithText (ofNatural value) := by
  refine endsWithText_scalar (.number (numberText_ofNatural value)) fun {cut} isCut isSome => ?_
  have written := NumberText.parts .absent (wholeText_of_isCut isCut isSome) .absent .absent
  rw [List.nil_append, List.append_nil, List.append_nil] at written
  have skipped : skipScalar (cut ++ []) = .ok [] := skipScalar_append (.number written) nofun
  rw [List.append_nil] at skipped
  exact .inr skipped

theorem endsWithText_ofCounter (counter : Option Nat) : EndsWithText (ofCounter counter) := by
  cases counter with
  | none => exact endsWithText_null
  | some address => exact endsWithText_ofNatural address

theorem ends_ofTail (words : List Word) : Ends (ofTail words ++ [closeBracket]) := by
  have ends := ends_elements (written_ofTail words) []
  rwa [List.append_nil] at ends

theorem skipFrom_cut_ofTail {outer : List Container} (words : List Word)
    (isCut : IsCut cut (ofTail words ++ [closeBracket])) :
    skipFrom (.entry false) (.list :: outer) cut = .error .cutOff := by
  induction words generalizing cut with
  | nil =>
      cases isCut with
      | here => exact skipFrom_next_error (next_nil .list false)
      | later isCut => cases isCut
  | cons word more inductionHypothesis =>
      rw [ofTail, List.flatMap_cons, ← ofTail, List.cons_append, List.cons_append,
        List.append_assoc] at isCut
      cases isCut with
      | here => exact skipFrom_next_error (next_nil .list false)
      | later isCut =>
          have isGap : Gap false [comma] := .later blanks_nil blanks_nil
          exact skipFrom_cut_element isGap rfl (written_ofNatural word.toNat)
            (endsWithText_ofNatural word.toNat) (ends_ofTail more) inductionHypothesis isCut

theorem skipFrom_cut_ofElements {outer : List Container} (words : List Word)
    (isCut : IsCut cut (ofElements words ++ [closeBracket])) :
    skipFrom (.entry true) (.list :: outer) cut = .error .cutOff := by
  cases words with
  | nil =>
      cases isCut with
      | here => exact skipFrom_next_error (next_nil .list true)
      | later isCut => cases isCut
  | cons word more =>
      rw [ofElements, List.append_assoc] at isCut
      have isGap : Gap true [] := .first blanks_nil
      exact skipFrom_cut_element isGap rfl (written_ofNatural word.toNat)
        (endsWithText_ofNatural word.toNat) (ends_ofTail more) (skipFrom_cut_ofTail more) isCut

theorem endsWithText_ofWords (words : List Word) : EndsWithText (ofWords words) := by
  intro cut isCut containers
  cases isCut with
  | here => exact .inl (skipFrom_blank rfl)
  | @later _ cut _ isCut =>
      have found : skipBlanks (openBracket :: cut) = openBracket :: cut := rfl
      rw [skipFrom_opening found rfl]
      exact .inl (skipFrom_cut_ofElements words isCut)

/-! ## Cut members -/

/-- The text of a member that the first reading skips. -/
inductive SkipsMember : Bytes → Prop where
  | plain {key : String} {value : Value} {text : Bytes} (plain : key.toList.all isPlain = true)
      (other : key ≠ "version") (isValue : Written (.value value) text)
      (endsWithText : EndsWithText text) : SkipsMember (ofMember key text)

theorem isVisible_of_mem_ascii {key : String} (plain : key.toList.all isPlain = true) :
    ∀ byte ∈ ascii key, IsVisible byte := by
  intro byte member
  obtain ⟨character, isMember, rfl⟩ := List.mem_map.mp member
  have bounds := List.all_eq_true.mp plain character isMember
  simp only [isPlain, Bool.and_eq_true, decide_eq_true_eq, bne_iff_ne] at bounds
  obtain ⟨⟨⟨visible, isAscii⟩, notQuote⟩, notBackslash⟩ := bounds
  exact isVisible_letter isAscii visible notQuote notBackslash

theorem ends_ofFollowing (texts : List Bytes) : Ends (ofFollowing texts ++ [closeBrace]) := by
  cases texts with
  | nil => exact ends_cons rfl
  | cons text more => exact ends_cons rfl

theorem readMembers_cut_ofFollowing {texts : List Bytes} (found : Option Word)
    (skips : ∀ text ∈ texts, SkipsMember text)
    (isCut : IsCut cut (ofFollowing texts ++ [closeBrace])) :
    readMembers versionGatherer found false cut = .error .cutOff := by
  induction texts generalizing cut with
  | nil =>
      cases isCut with
      | here => exact readMembers_next_error (next_nil .record false)
      | later isCut => cases isCut
  | cons text more inductionHypothesis =>
      obtain ⟨skipsText, skipsMore⟩ := List.forall_mem_cons.mp skips
      rw [ofFollowing, List.flatMap_cons, ← ofFollowing, List.cons_append, List.cons_append,
        List.append_assoc] at isCut
      cases isCut with
      | here => exact readMembers_next_error (next_nil .record false)
      | later isCut =>
          have isGap : Gap false [comma] := .later blanks_nil blanks_nil
          cases skipsText with
          | @plain key _ value plain other isValue endsWithText =>
              have gathers (label : Bytes) : versionGatherer.gather found key label =
                  (skipMember label).map fun rest => (found, rest) := by
                simp only [versionGatherer, gatherVersion, other, if_false]
                cases skipMember label <;> rfl
              simp only [ofMember, List.cons_append, List.append_assoc] at isCut
              refine readMembers_cut_member isGap rfl (spells_letters plain)
                (isVisible_of_mem_ascii plain) ?_ ?_ isCut
              · intro cut isCut
                rw [gathers]
                rcases skipMember_cut endsWithText isCut with failed | skipped
                · exact .inl (by rw [failed]; rfl)
                · exact .inr ⟨found, by rw [skipped]; rfl⟩
              · intro later isCut
                have skipped : skipMember (colon :: (value ++ later)) = .ok later :=
                  skipMember_written blanks_nil blanks_nil isValue
                    (isCut.ends (ends_ofFollowing more))
                refine ⟨found, ?_, inductionHypothesis skipsMore isCut⟩
                rw [gathers, skipped]
                rfl

theorem skips_members (machine : Machine) : ∀ text ∈ (members machine).tail, SkipsMember text := by
  simp only [members, List.tail_cons, List.forall_mem_cons, List.not_mem_nil, false_implies,
    implies_true, and_true]
  refine ⟨.plain rfl (by decide) (written_ofWords _) (endsWithText_ofWords _),
    .plain rfl (by decide) (written_ofCounter _) (endsWithText_ofCounter _),
    .plain rfl (by decide) (written_ofWords _) (endsWithText_ofWords _),
    .plain rfl (by decide) (written_ofWords _) (endsWithText_ofWords _),
    .plain rfl (by decide) (written_ofNatural _) (endsWithText_ofNatural _)⟩

/-! ## The first reading -/

theorem gatherVersion_colon (value : Bytes) :
    versionGatherer.gather none "version" (colon :: value) =
      (readWord value).map fun read => (some read.1, read.2) := by
  have isColon : expectColon (colon :: value) = .ok value := expectColon_blanks blanks_nil value
  show gatherVersion none "version" _ = _
  simp only [gatherVersion, if_true, readOnce, Option.isSome_none, Bool.false_eq_true, if_false,
    readMember, isColon]
  cases readWord value <;> rfl

theorem readWord_version (ends : Ends rest) :
    readWord (ofWord version ++ rest) = .ok (version, rest) := by
  have read := recognizes_word blanks_nil (written_ofNatural version.toNat) ends
  rw [List.nil_append, word?_valueOfNatural] at read
  exact toOption_eq_some_iff.mp read

/-- A snapshot that is cut ends in its first reading. -/
theorem readMembers_cut_members (machine : Machine)
    (isCut : IsCut cut ([comma].intercalate (members machine) ++ [closeBrace])) :
    readMembers versionGatherer none true cut = .error .cutOff := by
  have isGap : Gap true [] := .first blanks_nil
  have plain : "version".toList.all isPlain = true := rfl
  have inParts : [comma].intercalate (members machine) =
      ofMember "version" (ofWord version) ++ ofFollowing (members machine).tail :=
    intercalate_comma _ _
  rw [inParts] at isCut
  simp only [ofMember, List.cons_append, List.append_assoc] at isCut
  refine readMembers_cut_member isGap rfl (spells_letters plain)
    (isVisible_of_mem_ascii plain) ?_ ?_ isCut
  · intro cut isCut
    cases isCut with
    | here => exact .inl rfl
    | later isCut =>
        -- The version is a single digit, so there is nothing left of it.
        have isDigit : ofWord version = [0x31] := by decide
        rw [isDigit] at isCut
        cases isCut with
        | here => exact .inl rfl
        | later isCut => cases isCut
  · intro later isCut
    have read := readWord_version (isCut.ends (ends_ofFollowing _))
    refine ⟨some version, ?_, readMembers_cut_ofFollowing _ (skips_members machine) isCut⟩
    rw [gatherVersion_colon, read]
    rfl

theorem readProbe_cut (isCut : IsCut cut (encode machine)) : readProbe cut = .error .cutOff := by
  cases isCut with
  | here => rfl
  | @later _ cut _ isCut =>
      have found : skipBlanks (openBrace :: cut) = openBrace :: cut := rfl
      simp only [readProbe, found, if_true, probeRecord, readMembers_cut_members machine isCut]

/-- The first reading of a snapshot leaves what stands behind it. -/
theorem readProbe_encode_append (machine : Machine) (rest : Bytes) :
    readProbe (encode machine ++ rest) = .ok (.record version, rest) := by
  have writes := writes_membersOf machine
  have walked : (readMembers versionGatherer none true
        ([comma].intercalate (members machine) ++ [closeBrace] ++ rest)).toOption =
      ((membersOf machine).foldlM (fun found member => meetVersion found member.1 member.2)
        none).map fun found => (found, rest) :=
    toOption_readMembers recognizes_gatherVersion (spellsMember_labelled writes)
      (written_intercalate writes) none rest
  have once : met? Value.word? none (valuesOf "version" (membersOf machine)) =
      some (some version) :=
    met?_eq_some_some_iff.mpr ⟨_, rfl, word?_valueOfNatural version⟩
  rw [foldlM_meetVersion, once] at walked
  have opened : skipBlanks (encode machine ++ rest) =
      openBrace :: ([comma].intercalate (members machine) ++ [closeBrace] ++ rest) := rfl
  apply toOption_eq_some_iff.mp
  rw [toOption_readProbe_record opened, walked]
  rfl

/-! ## Damage -/

theorem decode_of_readProbe_error {failure : Failure}
    (failed : readAll readProbe text = .error failure) :
    decode text = .error (.malformed failure) := by
  simp only [decode, failed]

theorem expectEnd_of_not_blanks (notBlanks : ¬ Blanks rest) :
    expectEnd rest = .error .illFormed := by
  unfold expectEnd
  split
  · next onlyBlanks => exact absurd (List.dropWhile_eq_nil_iff.mp onlyBlanks) notBlanks
  · rfl

/-- Blanks may stand around a snapshot. -/
theorem decode_blanks {before after : Bytes} (addressable : machine.Addressable)
    (blanksBefore : Blanks before) (blanksAfter : Blanks after) :
    decode (before ++ (encode machine ++ after)) = .ok machine := by
  have writes := writes_membersOf machine
  have document : RecordDocument (membersOf machine) (before ++ (encode machine ++ after)) :=
    ⟨_, spellsMember_labelled writes,
      .value blanksBefore (.record (written_intercalate writes)) blanksAfter⟩
  have describes := (describes_iff machine).mp (describes_membersOf addressable)
  exact decode_of_readings ((readAll_readProbe_eq_ok_iff document version).mpr describes.1)
    ((readAll_readMachine_eq_ok_iff document machine).mpr describes.2)

/-- A snapshot that breaks off is refused as cut off, and one with anything but blanks behind it as
ill-formed; with blanks around it, it is read. -/
theorem decode_damaged (machine : Machine) :
    (∀ cut, cut <+: encode machine → cut ≠ encode machine →
        decode cut = .error (.malformed .cutOff)) ∧
      (∀ rest, ¬ Blanks rest → decode (encode machine ++ rest) = .error (.malformed .illFormed)) ∧
      (machine.Addressable → ∀ before after, Blanks before → Blanks after →
        decode (before ++ (encode machine ++ after)) = .ok machine) := by
  refine ⟨fun cut begins different => ?_, fun rest notBlanks => ?_,
    fun addressable before after blanksBefore blanksAfter =>
      decode_blanks addressable blanksBefore blanksAfter⟩
  · apply decode_of_readProbe_error
    simp only [readAll, readProbe_cut (isCut_of_ne begins different)]
  · apply decode_of_readProbe_error
    simp only [readAll, readProbe_encode_append, expectEnd_of_not_blanks notBlanks]

/-- The snapshot breaks off behind its version, goes on with a second record, or is indented. -/
theorem decode_damaged_atLastAddress :
    (ascii "\x7b\"version\":1" <+: encode atLastAddress ∧
      decode (ascii "\x7b\"version\":1") = .error (.malformed .cutOff)) ∧
    (¬ Blanks (ascii " \x7b") ∧
      decode (encode atLastAddress ++ ascii " \x7b") = .error (.malformed .illFormed)) ∧
    atLastAddress.Addressable ∧
      decode (ascii " " ++ (encode atLastAddress ++ ascii "\n")) = .ok atLastAddress := by
  have cut : ascii "\x7b\"version\":1" <+: encode atLastAddress := by decide +kernel
  have different : ascii "\x7b\"version\":1" ≠ encode atLastAddress := by decide +kernel
  have notBlanks : ¬ Blanks (ascii " \x7b") := fun blanks => absurd (blanks openBrace) (by decide)
  have addressable : atLastAddress.Addressable := by
    intro address stands
    cases stands
    decide
  have damaged := decode_damaged atLastAddress
  exact ⟨⟨cut, damaged.1 _ cut different⟩, ⟨notBlanks, damaged.2.1 _ notBlanks⟩, addressable,
    damaged.2.2 addressable _ _ (blanks_singleton rfl) (blanks_singleton rfl)⟩

end Snapshot

end RegisterMachine
