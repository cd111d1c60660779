import RegisterMachine.Proofs.Json.Spelling
import RegisterMachine.Proofs.Snapshot.Acceptance

/-!
Contract: exactly the texts of another version are refused for their version.

The first reading skips whatever is not the version, however deep it nests, and
goes on to the end of the text. So a text that is refused for its version is
JSON throughout, and its version is a word that occurs once. What the other
members are is not asked before the version is right.

Owns: `StatesVersion`, which texts are refused for their version, and that only
records are accepted.
Does not own: which records are accepted (`Proofs.Snapshot.Acceptance`).
-/

namespace RegisterMachine.Snapshot

open Json Json.Mark

variable {A : Type} {text rest inside : Bytes} {found : Word}

/-- A text that states its version: a record with one such member, or a list of the version
alone. -/
inductive StatesVersion (found : Word) (text : Bytes) : Prop where
  | record {members : List (String × Value)} (document : RecordDocument members text)
      (isVersion : HasOne members "version" Value.word? found)
  | list {value : Value} (document : Document (.list [value]) text)
      (isVersion : value.word? = some found)

/-! ## What the first reading has met -/

theorem exists_of_readAll {reader : Reader A} {value : A} (read : readAll reader text = .ok value) :
    ∃ after, reader text = .ok (value, after) ∧ Blanks after := by
  unfold readAll at read
  split at read
  · contradiction
  · next found after isRead =>
      split at read
      · contradiction
      · next ended =>
          cases read
          refine ⟨after, isRead, ?_⟩
          obtain ⟨blanks, isText, areBlanks⟩ := exists_blanks after
          unfold expectEnd at ended
          split at ended
          · next noMore =>
              rw [noMore, List.append_nil] at isText
              rw [isText]
              exact areBlanks
          · contradiction

theorem meetsMember_gatherVersion (found : Option Word) (key : String) :
    MeetsMember (gatherVersion found key) := by
  intro text rest gathered read
  unfold gatherVersion at read
  split at read
  · split at read
    · contradiction
    · next once =>
        cases read
        exact meetsMember_readOnce meetsValue_readWord _ _ once
  · split at read
    · contradiction
    · next skipped =>
        cases read
        exact exists_of_skipMember skipped

theorem exists_of_probeRecord {probe : Probe} (read : probeRecord inside = .ok (probe, rest)) :
    ∃ labelled members written, inside = written ++ rest ∧
      List.Forall₂ SpellsMember labelled members ∧ Written (.members true labelled) written := by
  unfold probeRecord at read
  split at read
  · contradiction
  · contradiction
  · next gathered =>
      cases read
      exact exists_of_readMembers meetsMember_gatherVersion gathered

theorem exists_of_closeList (closed : closeList text = .ok rest) :
    ∃ blanks, text = blanks ++ closeBracket :: rest ∧ Blanks blanks := by
  unfold closeList at closed
  split at closed
  · contradiction
  · next found =>
      split at closed
      · next isClosing =>
          cases closed
          rw [isClosing] at found
          exact exists_of_skipBlanks found
      · contradiction

theorem exists_of_probeList {probe : Probe} (read : probeList inside = .ok (probe, rest)) :
    ∃ value written, inside = written ++ rest ∧ value.word? = some probe.version ∧
      Written (.elements true [value]) written := by
  unfold probeList at read
  split at read
  · contradiction
  · contradiction
  · next entered =>
      split at read
      · contradiction
      · next version after isWord =>
          split at read
          · contradiction
          · next closed =>
              cases read
              obtain ⟨gap, rfl, isGap⟩ := exists_of_next_entry entered
              obtain ⟨blanks, rfl, areBlanks⟩ := exists_of_closeList closed
              cases meetsValue_readWord isWord with
              | @value value before written blanksBefore isValue =>
                  have ends : Ends (blanks ++ closeBracket :: rest) :=
                    ends_append areBlanks (ends_cons rfl)
                  have meant := recognizes_word blanksBefore isValue ends
                  rw [isWord] at meant
                  obtain ⟨word, isVersion, same⟩ := Option.map_eq_some_iff.mp meant.symm
                  cases same
                  refine ⟨value, _, ?_, isVersion,
                    .element (gap_append isGap blanksBefore) isValue (.noElements areBlanks)⟩
                  simp only [List.append_assoc, List.cons_append, List.nil_append]

/-- A record is not taken for a list. -/
theorem exists_record_of_probe {members : List (String × Value)} {probe : Probe}
    (document : RecordDocument members text) (read : readAll readProbe text = .ok probe) :
    ∃ version, probe = .record version := by
  have gathered := toOption_readAll_record versionGatherer recognizes_gatherVersion none
    (fun found => found.map Probe.record) toOption_readProbe_record document
  rw [toOption_eq_some_iff.mpr read] at gathered
  obtain ⟨_, _, isRecord⟩ := Option.bind_eq_some_iff.mp gathered.symm
  obtain ⟨version, _, rfl⟩ := Option.map_eq_some_iff.mp isRecord
  exact ⟨version, rfl⟩

/-- The first reading succeeds on texts that state their version only. -/
theorem statesVersion_of_probe {probe : Probe} (read : readAll readProbe text = .ok probe) :
    StatesVersion probe.version text := by
  obtain ⟨after, probed, blanksAfter⟩ := exists_of_readAll read
  unfold readProbe at probed
  split at probed
  · contradiction
  · next first inside found =>
      obtain ⟨before, isText, blanksBefore⟩ := exists_of_skipBlanks found
      split at probed
      · next isBrace =>
          obtain ⟨labelled, members, written, rfl, spelled, isInside⟩ :=
            exists_of_probeRecord probed
          have document : RecordDocument members text := by
            rw [isText, isBrace]
            exact ⟨labelled, spelled, .value blanksBefore (.record isInside) blanksAfter⟩
          obtain ⟨version, rfl⟩ := exists_record_of_probe document read
          exact .record document ((readAll_readProbe_eq_ok_iff document version).mp read)
      · split at probed
        · next isBracket =>
            obtain ⟨value, written, rfl, isVersion, isInside⟩ := exists_of_probeList probed
            refine @StatesVersion.list _ _ value ?_ isVersion
            rw [isText, isBracket]
            exact .value blanksBefore (.list isInside) blanksAfter
        · contradiction

/-! ## What the first reading finds -/

theorem readAll_readProbe_list {value : Value} (document : Document (.list [value]) text)
    (isVersion : value.word? = some found) : readAll readProbe text = .ok (.list found) := by
  cases document with
  | @value before _ after blanksBefore isList blanksAfter =>
      cases isList with
      | scalar isScalar => cases isScalar
      | list isInside =>
          cases isInside with
          | @element _ _ _ gap written _ isGap isValue isEnd =>
              cases isEnd with
              | @noElements _ blanks areBlanks =>
                  have opened : skipBlanks (before ++ (openBracket ::
                      (gap ++ (written ++ (blanks ++ [closeBracket]))) ++ after)) =
                        openBracket :: (gap ++ (written ++ (blanks ++ closeBracket :: after))) := by
                    simp only [List.cons_append, List.append_assoc, List.nil_append]
                    exact skipBlanks_mark blanksBefore rfl _
                  have ends : Ends (blanks ++ closeBracket :: after) :=
                    ends_append areBlanks (ends_cons rfl)
                  have isWord := recognizes_word blanks_nil isValue ends
                  rw [isVersion, Option.map_some, toOption_eq_some_iff, List.nil_append] at isWord
                  have notBrace : openBracket ≠ openBrace := by decide
                  rw [← toOption_eq_some_iff]
                  apply toOption_readAll blanksAfter
                  simp only [readProbe, opened, notBrace, if_false, if_true, probeList,
                    next_written isGap isValue, isWord, closeList_blanks areBlanks]
                  rfl

/-- A text that states its version is read as a record or a list of that version. -/
theorem exists_probe_of_statesVersion (states : StatesVersion found text) :
    ∃ probe, readAll readProbe text = .ok probe ∧ probe.version = found := by
  cases states with
  | record document isVersion =>
      exact ⟨.record found, (readAll_readProbe_eq_ok_iff document found).mpr isVersion, rfl⟩
  | list document isVersion => exact ⟨.list found, readAll_readProbe_list document isVersion, rfl⟩

/-! ## Accepted texts -/

/-- Among all texts, those that are records of a machine are accepted. -/
theorem decode_eq_ok_iff_describes {machine : Machine} :
    decode text = .ok machine ↔
      ∃ members, RecordDocument members text ∧ Describes members machine := by
  constructor
  · intro decoded
    obtain ⟨probed, read⟩ := (decode_eq_ok_iff text machine).mp decoded
    cases statesVersion_of_probe probed with
    | record document isVersion =>
        have made := (readAll_readMachine_eq_ok_iff document machine).mp read
        exact ⟨_, document, (describes_iff machine).mpr ⟨isVersion, made⟩⟩
    | list document isVersion =>
        -- The first reading has found a record.
        rw [readAll_readProbe_list document isVersion] at probed
        cases probed
  · rintro ⟨members, document, describes⟩
    obtain ⟨isVersion, made⟩ := (describes_iff machine).mp describes
    exact (decode_eq_ok_iff text machine).mpr
      ⟨(readAll_readProbe_eq_ok_iff document _).mpr isVersion,
        (readAll_readMachine_eq_ok_iff document machine).mpr made⟩

/-! ## The gate -/

theorem decode_of_other_version {probe : Probe} (probed : readAll readProbe text = .ok probe)
    (other : probe.version ≠ version) :
    decode text = .error (.unsupportedVersion probe.version) := by
  have refused : checkVersion probe.version = .error (.unsupportedVersion probe.version) :=
    if_neg other
  simp only [decode, probed, refused]

theorem exists_probe_of_decode (refused : decode text = .error (.unsupportedVersion found)) :
    ∃ probe, readAll readProbe text = .ok probe ∧ probe.version = found ∧ found ≠ version := by
  unfold decode at refused
  split at refused
  · cases refused
  · next probe probed =>
      split at refused
      · next error isError =>
          cases refused
          unfold checkVersion at isError
          split at isError
          · cases isError
          · next other =>
              cases isError
              exact ⟨probe, probed, rfl, other⟩
      · split at refused <;> cases refused

theorem decode_eq_unsupportedVersion_iff (text : Bytes) (found : Word) :
    decode text = .error (.unsupportedVersion found) ↔
      StatesVersion found text ∧ found ≠ version := by
  constructor
  · intro refused
    obtain ⟨probe, probed, rfl, other⟩ := exists_probe_of_decode refused
    exact ⟨statesVersion_of_probe probed, other⟩
  · rintro ⟨states, other⟩
    obtain ⟨probe, probed, rfl⟩ := exists_probe_of_statesVersion states
    exact decode_of_other_version probed other

/-- A record is refused for its version exactly if the version occurs once and is another word,
whatever the other members are. Among all texts, only those that are JSON throughout and state
another version are refused for it. -/
theorem refuses_version_exactly :
    (∀ (members : List (String × Value)) (text : Bytes) (found : Word),
      RecordDocument members text →
        (decode text = .error (.unsupportedVersion found) ↔
          HasOne members "version" Value.word? found ∧ found ≠ version)) ∧
    ∀ (text : Bytes) (found : Word),
      decode text = .error (.unsupportedVersion found) ↔
        StatesVersion found text ∧ found ≠ version := by
  constructor
  · intro members text found document
    constructor
    · intro refused
      obtain ⟨probe, probed, rfl, other⟩ := exists_probe_of_decode refused
      obtain ⟨version, rfl⟩ := exists_record_of_probe document probed
      exact ⟨(readAll_readProbe_eq_ok_iff document version).mp probed, other⟩
    · rintro ⟨isVersion, other⟩
      exact (decode_eq_unsupportedVersion_iff text found).mpr ⟨.record document isVersion, other⟩
  · exact decode_eq_unsupportedVersion_iff

/-- A record of version seven with a nested member that occurs again as another type. -/
def sevenMembers : List (String × Value) :=
  [("stack", .list [.list []]), ("version", valueOfNatural 7), ("stack", .null)]

def sevenTexts : List Bytes :=
  [ofMember "stack" (ascii "[[]]"), ofMember "version" (ofNatural 7),
    ofMember "stack" (ascii "null")]

def sevenText : Bytes := openBrace :: ([comma].intercalate sevenTexts ++ [closeBrace])

theorem recordDocument_seven : RecordDocument sevenMembers sevenText := by
  have empty : Written (.value (.list [])) (ascii "[]") := .list (.noElements blanks_nil)
  have nested : Written (.value (.list [.list []])) (ascii "[[]]") :=
    .list (.element (.first blanks_nil) empty (.noElements blanks_nil))
  exact recordDocument_of_writes <| .cons (.plain rfl nested) <|
    .cons (.plain rfl (written_ofNatural 7)) <| .cons (.plain rfl (.scalar .null)) .nil

theorem refuses_version_exactly_of_seven :
    RecordDocument sevenMembers sevenText ∧
      decode sevenText = .error (.unsupportedVersion 7) ∧ StatesVersion 7 sevenText := by
  have isVersion : HasOne sevenMembers "version" Value.word? 7 :=
    ⟨_, rfl, word?_valueOfNatural 7⟩
  have refused := (refuses_version_exactly.1 sevenMembers sevenText 7 recordDocument_seven).mpr
    ⟨isVersion, by decide⟩
  exact ⟨recordDocument_seven, refused, ((refuses_version_exactly.2 sevenText 7).mp refused).1⟩

end RegisterMachine.Snapshot
