import RegisterMachine.Proofs.Snapshot.Gathering
import RegisterMachine.Proofs.Snapshot.Values

/-!
Contract: exactly the snapshots are accepted.

A record is a snapshot if it has each of its members once, with a value of the
right type and range; the program counter may be absent. Other members may have
any keys and values, and the order does not matter. The machine that is read is
the one that the values describe. Text whose value is no record is no snapshot.

Owns: `Describes`, both readings of any record, and what is accepted.
Does not own: the grammar of JSON (`Proofs.Json.Grammar`).
-/

namespace RegisterMachine.Snapshot

open Json Json.Mark

variable {A B : Type}

/-! ## Snapshots -/

/-- The members of a snapshot of this machine, in any order and among others. -/
structure Describes (members : List (String × Value)) (machine : Machine) : Prop where
  version : HasOne members "version" Value.word? version
  memory : HasOne members "memory" Value.words? machine.memory.toList
  registers : HasOne members "registers" (Value.wordsOf? 8) machine.registers.cells
  /-- From bottom to top. -/
  stack : HasOne members "stack" Value.words? machine.stack.reverse
  result : HasOne members "result" Value.word? machine.result
  /-- Absent and null both stand for a halted machine. -/
  pc : valuesOf "pc" members = [] ∧ machine.pc = none ∨
    HasOne members "pc" Value.counter? machine.pc

/-! ## Whole texts -/

theorem toOption_eq_some_iff {E A : Type} {result : Except E A} {value : A} :
    result.toOption = some value ↔ result = .ok value := by
  cases result with
  | error failure => simp [Except.toOption]
  | ok found => simp [Except.toOption]

theorem toOption_readAll {reader : Reader A} {text after : Bytes} {found : Option A}
    (areBlanks : Blanks after)
    (read : (reader text).toOption = found.map fun value => (value, after)) :
    (readAll reader text).toOption = found := by
  have noMore : skipBlanks after = [] := by
    have skipped := skipBlanks_append areBlanks []
    rw [List.append_nil] at skipped
    exact skipped
  cases found with
  | none =>
      cases result : reader text with
      | error failure =>
          rw [readAll, result]
          rfl
      | ok pair =>
          rw [result] at read
          cases read
  | some value =>
      rw [Option.map_some, toOption_eq_some_iff] at read
      have ended : expectEnd after = .ok () := by rw [expectEnd, noMore]
      simp only [readAll, read, ended]
      rfl

theorem decode_of_readings {text : Bytes} {machine : Machine}
    (probed : readAll readProbe text = .ok (.record version))
    (read : readAll readMachine text = .ok machine) : decode text = .ok machine := by
  have accepted : checkVersion (Probe.record version).version = .ok version := rfl
  have second : decodeProbed text (.record version) = .ok machine := read
  simp only [decode, probed, accepted, second]

theorem decode_eq_ok_iff (text : Bytes) (machine : Machine) :
    decode text = .ok machine ↔
      readAll readProbe text = .ok (.record version) ∧ readAll readMachine text = .ok machine := by
  constructor
  · intro decoded
    unfold decode at decoded
    split at decoded
    · cases decoded
    · next probe probed =>
        split at decoded
        · cases decoded
        · next accepted =>
            split at decoded
            · cases decoded
            · next read =>
                cases decoded
                cases probe with
                | list found => cases read
                | record found =>
                    unfold checkVersion at accepted
                    split at accepted
                    · next isVersion =>
                        have isFound : found = version := isVersion
                        rw [isFound] at probed
                        exact ⟨probed, read⟩
                    · cases accepted
  · rintro ⟨probed, read⟩
    exact decode_of_readings probed read

theorem toOption_readProbe_record {text inside : Bytes}
    (found : skipBlanks text = openBrace :: inside) :
    (readProbe text).toOption =
      (readMembers versionGatherer none true inside).toOption.bind fun read =>
        (read.1.map Probe.record).map fun probe => (probe, read.2) := by
  simp only [readProbe, found, if_true, probeRecord]
  cases readMembers versionGatherer none true inside with
  | error failure => rfl
  | ok read =>
      obtain ⟨version, rest⟩ := read
      cases version <;> rfl

theorem toOption_readMachine_record {text inside : Bytes}
    (found : skipBlanks text = openBrace :: inside) :
    (readMachine text).toOption =
      (readMembers draftGatherer .empty true inside).toOption.bind fun read =>
        read.1.machine.toOption.map fun machine => (machine, read.2) := by
  simp only [readMachine, found, if_true]
  cases readMembers draftGatherer .empty true inside with
  | error failure => rfl
  | ok read =>
      obtain ⟨draft, rest⟩ := read
      show _ = draft.machine.toOption.map fun machine => (machine, rest)
      cases made : draft.machine <;> simp only [made] <;> rfl

variable {members : List (String × Value)} {text : Bytes}

/-- Reading a whole record is gathering its members one by one. -/
theorem toOption_readAll_record (gatherer : Gatherer B) {step : B → String → Value → Option B}
    (recognizes : ∀ gathered key,
      RecognizesMember (gatherer.gather gathered key) (step gathered key))
    {reader : Reader A} (start : B) (finish : B → Option A)
    (reads : ∀ {text inside : Bytes}, skipBlanks text = openBrace :: inside →
      (reader text).toOption =
        (readMembers gatherer start true inside).toOption.bind fun read =>
          (finish read.1).map fun value => (value, read.2))
    (document : RecordDocument members text) :
    (readAll reader text).toOption =
      (members.foldlM (fun gathered member => step gathered member.1 member.2) start).bind
        finish := by
  obtain ⟨labelled, spelled, isDocument⟩ := document
  cases isDocument with
  | @value before _ after blanksBefore isValue blanksAfter =>
      cases isValue with
      | scalar isScalar => cases isScalar
      | @record _ inside isInside =>
          have found : skipBlanks (before ++ (openBrace :: inside ++ after)) =
              openBrace :: (inside ++ after) := skipBlanks_mark blanksBefore rfl _
          have walked := toOption_readMembers recognizes spelled isInside start after
          apply toOption_readAll blanksAfter
          rw [reads found, walked, Option.map_bind, Option.bind_map]
          rfl

/-- The first reading finds the only version. -/
theorem readAll_readProbe_eq_ok_iff (document : RecordDocument members text) (version : Word) :
    readAll readProbe text = .ok (.record version) ↔
      HasOne members "version" Value.word? version := by
  have read := toOption_readAll_record versionGatherer recognizes_gatherVersion none
    (fun found => found.map Probe.record) toOption_readProbe_record document
  rw [← toOption_eq_some_iff, read, foldlM_meetVersion, ← met?_eq_some_some_iff,
    Option.bind_eq_some_iff]
  constructor
  · rintro ⟨found, met, isFound⟩
    obtain ⟨other, rfl, isRecord⟩ := Option.map_eq_some_iff.mp isFound
    cases isRecord
    exact met
  · intro met
    exact ⟨some version, met, rfl⟩

/-- The second reading makes up the machine that the members describe. -/
theorem readAll_readMachine_eq_ok_iff (document : RecordDocument members text) (machine : Machine) :
    readAll readMachine text = .ok machine ↔
      ∃ draft, Draft.empty.Collects members draft ∧ draft.machine = .ok machine := by
  have read := toOption_readAll_record draftGatherer Draft.recognizes_gather .empty
    (fun draft => draft.machine.toOption) toOption_readMachine_record document
  rw [← toOption_eq_some_iff, read, Option.bind_eq_some_iff]
  simp only [Draft.foldlM_meet_eq_some_iff, toOption_eq_some_iff]

theorem hasOne_cells_iff (key : String) (words : List Word) :
    HasOne members key Value.cells? words.toArray ↔ HasOne members key Value.words? words := by
  have sameMeaning (value : Value) :
      value.cells? = some words.toArray ↔ value.words? = some words := by
    rw [Value.cells?, Option.map_eq_some_iff]
    constructor
    · rintro ⟨found, isFound, same⟩
      rw [isFound, List.toArray_inj same]
    · intro isWords
      exact ⟨words, isWords, rfl⟩
  simp only [HasOne, sameMeaning]

/-- The program counter is that of the value, if there is one. -/
theorem exists_met_pc_iff (counter : Option Nat) :
    (∃ met, met? Value.counter? none (valuesOf "pc" members) = some met ∧ met.join = counter) ↔
      valuesOf "pc" members = [] ∧ counter = none ∨
        HasOne members "pc" Value.counter? counter := by
  constructor
  · rintro ⟨met, isMet, rfl⟩
    cases met with
    | none => exact .inl ⟨(met?_eq_some_none_iff _ _).mp isMet, rfl⟩
    | some found => exact .inr (met?_eq_some_some_iff.mp isMet)
  · rintro (⟨absent, rfl⟩ | present)
    · exact ⟨none, (met?_eq_some_none_iff _ _).mpr absent, rfl⟩
    · exact ⟨some counter, met?_eq_some_some_iff.mpr present, rfl⟩

theorem describes_iff (machine : Machine) :
    Describes members machine ↔
      HasOne members "version" Value.word? version ∧
        ∃ draft, Draft.empty.Collects members draft ∧ draft.machine = .ok machine := by
  constructor
  · intro describes
    obtain ⟨met, isMet, isCounter⟩ := (exists_met_pc_iff machine.pc).mpr describes.pc
    have memory := (hasOne_cells_iff "memory" machine.memory.toList).mpr describes.memory
    have stack := (hasOne_cells_iff "stack" machine.stack.reverse).mpr describes.stack
    refine ⟨describes.version, ⟨some version, some machine.memory.cells, met,
      some machine.registers.cells, some machine.stack.reverse.toArray, some machine.result⟩,
      ?_, ?_⟩
    · exact ⟨met?_eq_some_some_iff.mpr describes.version, met?_eq_some_some_iff.mpr memory, isMet,
        met?_eq_some_some_iff.mpr describes.registers, met?_eq_some_some_iff.mpr stack,
        met?_eq_some_some_iff.mpr describes.result⟩
    · rw [Draft.machine_eq_ok_iff]
      exact ⟨⟨version, rfl⟩, rfl, rfl, rfl, rfl, isCounter⟩
  · rintro ⟨isVersion, draft, collects, made⟩
    obtain ⟨_, isMemory, isRegisters, isStack, isResult, isCounter⟩ :=
      (Draft.machine_eq_ok_iff draft machine).mp made
    have memory := collects.memory
    have registers := collects.registers
    have stack := collects.stack
    have result := collects.result
    rw [isMemory] at memory
    rw [isRegisters] at registers
    rw [isStack] at stack
    rw [isResult] at result
    exact ⟨isVersion, (hasOne_cells_iff _ _).mp (met?_eq_some_some_iff.mp memory),
      met?_eq_some_some_iff.mp registers,
      (hasOne_cells_iff _ _).mp (met?_eq_some_some_iff.mp stack), met?_eq_some_some_iff.mp result,
      (exists_met_pc_iff machine.pc).mp ⟨draft.pc, collects.pc, isCounter⟩⟩

/-! ## Acceptance -/

theorem exists_openBrace_of_decode {machine : Machine} (decoded : decode text = .ok machine) :
    ∃ inside, skipBlanks text = openBrace :: inside := by
  have read := ((decode_eq_ok_iff text machine).mp decoded).2
  unfold readAll at read
  split at read
  · cases read
  · next found =>
      unfold readMachine at found
      split at found
      · cases found
      · next first inside blanks =>
          split at found
          · next isOpening =>
              rw [isOpening] at blanks
              exact ⟨inside, blanks⟩
          · cases found

/-- Only records are accepted. -/
theorem kind_of_decode {value : Value} {machine : Machine} (document : Document value text)
    (decoded : decode text = .ok machine) : value.kind = .record := by
  obtain ⟨inside, opened⟩ := exists_openBrace_of_decode decoded
  cases document with
  | @value before written after blanksBefore isValue blanksAfter =>
      obtain ⟨byte, tail, rfl, isFirst⟩ := exists_first_of_written isValue
      rw [List.cons_append, skipBlanks_first blanksBefore isFirst] at opened
      cases opened
      exact (Option.some.inj isFirst).symm

/-- A record is read as the machine that its members describe, and is refused if they describe
none; any other JSON text is refused. -/
theorem accepts_exactly :
    (∀ (members : List (String × Value)) (text : Bytes) (machine : Machine),
      RecordDocument members text → (decode text = .ok machine ↔ Describes members machine)) ∧
    ∀ (value : Value) (text : Bytes), Document value text → value.kind ≠ .record →
      ∃ error, decode text = .error error := by
  constructor
  · intro members text machine document
    rw [decode_eq_ok_iff, readAll_readProbe_eq_ok_iff document,
      readAll_readMachine_eq_ok_iff document, describes_iff]
  · intro value text document other
    cases decoded : decode text with
    | error error => exact ⟨error, rfl⟩
    | ok machine => exact absurd (kind_of_decode document decoded) other

theorem blanks_singleton {byte : UInt8} (blank : isBlank byte = true) : Blanks [byte] := by
  intro other member
  rw [List.mem_singleton.mp member]
  exact blank

/-- A snapshot whose members stand in another order, with blanks, an escaped key and a member that
is skipped. -/
def reordered : Bytes :=
  openBrace :: (ascii (" \"result\":2, \"\\u0070c\" :null,\"x\":[[]],\"stack\":[],\"version\":1," ++
    "\"memory\":[7],\"registers\":[0,0,0,0,0,0,0,0]") ++ closeBrace :: ascii "\n")

def reorderedMembers : List (String × Value) :=
  [("result", valueOfNatural 2), ("pc", .null), ("x", .list [.list []]),
    ("stack", .list (valuesOfWords [])), ("version", valueOfNatural 1),
    ("memory", .list (valuesOfWords [7])),
    ("registers", .list (valuesOfWords (List.replicate 8 0)))]

theorem recordDocument_reordered : RecordDocument reorderedMembers reordered := by
  have empty : Written (.value (.list [])) (ascii "[]") := .list (.noElements blanks_nil)
  have nested : Written (.value (.list [.list []])) (ascii "[[]]") :=
    .list (.element (.first blanks_nil) empty (.noElements blanks_nil))
  have space : Blanks (ascii " ") := blanks_singleton rfl
  have lineFeed : Blanks (ascii "\n") := blanks_singleton rfl
  have comma : Gap false [comma] := .later blanks_nil blanks_nil
  have plain (key : String) (isPlain : key.toList.all isPlain = true) :
      Spells key.toList (ascii key) := spells_letters isPlain
  have hex : HexText 'p'.toNat (ascii "0070") := @HexText.digits _ _ _ _ 0 0 7 0 rfl rfl rfl rfl
  have escaped : Spells "pc".toList (ascii "\\u0070c") := .character (.code hex) (plain "c" rfl)
  have fromSkipped : Written (.members false (labelled (reorderedMembers.drop 2))) _ :=
    written_member (.plain rfl nested) comma <|
      written_member (.plain rfl (written_ofWords [])) comma <|
        written_member (.plain rfl (written_ofNatural 1)) comma <|
          written_member (.plain rfl (written_ofWords [7])) comma <|
            written_member (.plain rfl (written_ofWords (List.replicate 8 0))) comma <|
              .noMembers blanks_nil
  have fromCounter := Written.member (.later blanks_nil space) (stringBody_of_spells escaped)
    space blanks_nil (.scalar .null) fromSkipped
  have all := Written.member (.first space) (stringBody_of_spells (plain "result" rfl))
    blanks_nil blanks_nil (written_ofNatural 2) fromCounter
  have document := Document.value blanks_nil (.record all) lineFeed
  have spelled : List.Forall₂ SpellsMember (labelled (reorderedMembers.drop 2))
      (reorderedMembers.drop 2) :=
    .cons ⟨plain "x" rfl, rfl⟩ <| .cons ⟨plain "stack" rfl, rfl⟩ <|
      .cons ⟨plain "version" rfl, rfl⟩ <| .cons ⟨plain "memory" rfl, rfl⟩ <|
        .cons ⟨plain "registers" rfl, rfl⟩ .nil
  refine ⟨_, ?_, Eq.mp (congrArg (Document _) ?_) document⟩
  · exact .cons ⟨plain "result" rfl, rfl⟩ (.cons ⟨escaped, rfl⟩ spelled)
  · -- The pieces make up the whole text.
    decide +kernel

def reorderedMachine : Machine := ⟨.ofList [7], .zero, [], none, 2⟩

theorem describes_reordered : Describes reorderedMembers reorderedMachine where
  version := ⟨_, rfl, word?_valueOfNatural 1⟩
  memory := ⟨_, rfl, words?_valuesOfWords [7]⟩
  registers := ⟨_, rfl, wordsOf?_valuesOfWords (Vector.replicate 8 0)⟩
  stack := ⟨_, rfl, words?_valuesOfWords []⟩
  result := ⟨_, rfl, word?_valueOfNatural 2⟩
  pc := .inr ⟨_, rfl, rfl⟩

theorem accepts_exactly_of_reordered :
    (RecordDocument reorderedMembers reordered ∧ Describes reorderedMembers reorderedMachine ∧
      decode reordered = .ok reorderedMachine) ∧
    (Document .null (ascii "null") ∧ ∃ error, decode (ascii "null") = .error error) := by
  have document := recordDocument_reordered
  have accepted := accepts_exactly.1 reorderedMembers reordered reorderedMachine document
  have other : Document .null (ascii "null") := .value blanks_nil (.scalar .null) blanks_nil
  have refused := accepts_exactly.2 .null (ascii "null") other nofun
  exact ⟨⟨document, describes_reordered, accepted.mpr describes_reordered⟩, other, refused⟩

end RegisterMachine.Snapshot
