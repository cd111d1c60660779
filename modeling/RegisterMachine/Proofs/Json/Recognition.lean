import RegisterMachine.Proofs.Json.Skipping

/-!
Contract: what the readers make of JSON text.

A reader is described by the meaning that it gives to values: it reads a value
that has the meaning and leaves the text after it, and it fails on a value that
has none.

Owns: the meanings of values as words, sizes and lists of words; `Recognizes`;
the walk over the members of a record.
Does not own: which members a snapshot has (`Proofs.Snapshot.Acceptance`).
-/

namespace RegisterMachine.Json

open Mark

variable {A B : Type} {first : Bool} {blanks gap text rest inside : Bytes} {byte : UInt8}
variable {value : Value}

/-! ## Meanings -/

/-- The value of a number that is written as a natural one, without sign, point and exponent. -/
def NumberParts.natural? : NumberParts → Option Nat
  | ⟨false, whole, none, none⟩ => some (ofDigits whole)
  | _ => none

namespace Value

/-- A natural number below a bound. -/
def below? (bound : Nat) : Value → Option Nat
  | .number parts => parts.natural?.filter fun value => decide (value < bound)
  | _ => none

/-- An integer from 0 to 65535. -/
def word? (value : Value) : Option Word := (value.below? 0x10000).map UInt16.ofNat

/-- Null, or an integer from 0 to 2^64 - 1. -/
def counter? : Value → Option (Option Nat)
  | .null => some none
  | value => (value.below? 0x10000000000000000).map some

/-- A list of integers from 0 to 65535. -/
def words? : Value → Option (List Word)
  | .list elements => elements.mapM word?
  | _ => none

/-- The words of a list as an array. -/
def cells? (value : Value) : Option (Array Word) := value.words?.map List.toArray

/-- A list of exactly so many words. -/
def wordsOf? (count : Nat) (value : Value) : Option (Vector Word count) :=
  value.words?.bind fun words =>
    if exact : words.length = count then some ⟨words.toArray, exact⟩ else none

end Value

/-- The reader takes a value that has this meaning, and fails on one that has none. -/
def Recognizes (reader : Reader A) (meaning : Value → Option A) : Prop :=
  ∀ ⦃value : Value⦄ ⦃blanks text rest : Bytes⦄, Blanks blanks → Written (.value value) text →
    Ends rest →
    (reader (blanks ++ (text ++ rest))).toOption = (meaning value).map fun meant => (meant, rest)

/-! ## Numbers -/

theorem floatingValue_ne_natural (parts : NumberParts) (value : Nat) :
    parts.floatingValue ≠ .ok (.natural value) := by
  intro isNatural
  unfold NumberParts.floatingValue at isNatural
  simp only at isNatural
  split at isNatural <;> cases isNatural

/-- Only natural numbers of 64 bits are valued as such. -/
theorem value_eq_natural_iff (parts : NumberParts) (value : Nat) :
    parts.value = .ok (.natural value) ↔
      parts.natural? = some value ∧ value < 0x10000000000000000 := by
  obtain ⟨negative, whole, fraction, exponent⟩ := parts
  have noFloat := floatingValue_ne_natural ⟨negative, whole, fraction, exponent⟩ value
  cases fraction with
  | some digits => simp [NumberParts.value, NumberParts.natural?, noFloat]
  | none =>
      cases exponent with
      | some written => simp [NumberParts.value, NumberParts.natural?, noFloat]
      | none =>
          cases negative with
          | true =>
              simp only [NumberParts.value, NumberParts.natural?, Option.isNone_none, Bool.and_self,
                if_true]
              split
              · simp
              · simp [noFloat]
          | false =>
              simp only [NumberParts.value, NumberParts.natural?, Option.isNone_none, Bool.and_self,
                if_true, Bool.false_eq_true, if_false]
              split
              · next small =>
                  simp only [Except.ok.injEq, Number.natural.injEq, Option.some.injEq]
                  constructor
                  · rintro rfl
                    exact ⟨rfl, small⟩
                  · exact And.left
              · next large =>
                  simp only [noFloat, Option.some.injEq, false_iff]
                  rintro ⟨rfl, small⟩
                  exact large small

theorem filter_natural_eq_none {parts : NumberParts} {bound : Nat}
    (boundLe : bound ≤ 0x10000000000000000)
    (otherwise : ∀ value, parts.value ≠ .ok (.natural value)) :
    (parts.natural?.filter fun value => decide (value < bound)) = none := by
  rw [Option.filter_eq_none_iff]
  intro value isNatural bounded
  have small : value < bound := of_decide_eq_true bounded
  exact otherwise value ((value_eq_natural_iff parts value).mpr
    ⟨isNatural, Nat.lt_of_lt_of_le small boundLe⟩)

/-- A number of another kind, or out of bounds, is refused. -/
theorem toOption_readNatural_number (expected : Expected) {bound : Nat}
    (boundLe : bound ≤ 0x10000000000000000) {parts : NumberParts} (areBlanks : Blanks blanks)
    (isNumber : NumberText parts text) (ends : Ends rest) :
    (readNatural expected bound (blanks ++ (text ++ rest))).toOption =
      (parts.natural?.filter fun value => decide (value < bound)).map
        fun value => (value, rest) := by
  have scanned := NumberParts.scan_append .cutOff isNumber ends
  obtain ⟨byte, tail, rfl, begins⟩ := NumberParts.exists_first_of_numberText isNumber
  have isFirst : Kind.ofFirst? byte = some .number := if_pos begins
  have found := skipBlanks_first areBlanks isFirst (tail ++ rest)
  rw [List.cons_append] at scanned ⊢
  simp only [readNatural, found, begins, if_true, readNumber, scanned]
  cases valued : parts.value with
  | error failure =>
      rw [filter_natural_eq_none boundLe (by simp [valued])]
      rfl
  | ok number =>
      cases number with
      | natural value =>
          have isNatural := ((value_eq_natural_iff parts value).mp valued).1
          rw [isNatural, Option.filter_some]
          by_cases bounded : value < bound
          · simp only [Except.map, Number.below, bounded, if_true, decide_true]
            rfl
          · simp only [Except.map, Number.below, bounded, if_false, decide_false]
            rfl
      | negative magnitude =>
          rw [filter_natural_eq_none boundLe (by simp [valued])]
          rfl
      | floating =>
          rw [filter_natural_eq_none boundLe (by simp [valued])]
          rfl

theorem toOption_readNatural_other (expected : Expected) (bound : Nat) (areBlanks : Blanks blanks)
    (written : Written (.value value) text) (other : value.kind ≠ .number) (rest : Bytes) :
    (readNatural expected bound (blanks ++ (text ++ rest))).toOption = none := by
  obtain ⟨byte, tail, rfl, isFirst⟩ := exists_first_of_written written
  have noNumber : ¬ (byte = minus ∨ isDigit byte = true) := by
    intro begins
    rw [Kind.ofFirst?, if_pos begins] at isFirst
    exact other (Option.some.inj isFirst).symm
  have found := skipBlanks_first areBlanks isFirst (tail ++ rest)
  rw [List.cons_append]
  simp only [readNatural, found, noNumber, if_false]
  rfl

theorem recognizes_natural (expected : Expected) (bound : Nat)
    (boundLe : bound ≤ 0x10000000000000000) :
    Recognizes (readNatural expected bound) (Value.below? bound) := by
  intro value blanks text rest areBlanks written ends
  have refused := toOption_readNatural_other expected bound areBlanks written
  cases value with
  | number parts =>
      cases written with
      | scalar isScalar =>
          cases isScalar with
          | number isNumber =>
              exact toOption_readNatural_number expected boundLe areBlanks isNumber ends
  | null => exact refused nofun rest
  | boolean truth => exact refused nofun rest
  | string body => exact refused nofun rest
  | list elements => exact refused nofun rest
  | record members => exact refused nofun rest

theorem toOption_readWord (text : Bytes) :
    (readWord text).toOption =
      (readNatural .word 0x10000 text).toOption.map
        fun found => (UInt16.ofNat found.1, found.2) := by
  unfold readWord
  split
  · next failed => rw [failed]; rfl
  · next read => rw [read]; rfl

theorem recognizes_word : Recognizes readWord Value.word? := by
  intro value blanks text rest areBlanks written ends
  have natural := recognizes_natural .word 0x10000 (by decide) areBlanks written ends
  rw [toOption_readWord, natural, Value.word?, Option.map_map, Option.map_map]
  rfl

theorem toOption_readSize?_null (areBlanks : Blanks blanks) (rest : Bytes) :
    (readSize? (blanks ++ (ascii "null" ++ rest))).toOption = some (none, rest) := by
  have found : skipBlanks (blanks ++ (ascii "null" ++ rest)) =
      letter 'n' :: (ascii "ull" ++ rest) := skipBlanks_mark areBlanks rfl _
  have word : expectBytes (ascii "ull") (ascii "ull" ++ rest) = .ok rest := rfl
  simp only [readSize?, found, if_true, word]
  rfl

theorem toOption_readSize?_of_ne {tail : Bytes} (found : skipBlanks text = byte :: tail)
    (notNull : byte ≠ letter 'n') :
    (readSize? text).toOption =
      (readNatural .size 0x10000000000000000 text).toOption.map
        fun found => (some found.1, found.2) := by
  simp only [readSize?, found, notNull, if_false, readSize]
  split
  · next failed => rw [failed]; rfl
  · next read => rw [read]; rfl

theorem recognizes_counter : Recognizes readSize? Value.counter? := by
  intro value blanks text rest areBlanks written ends
  have natural := recognizes_natural .size 0x10000000000000000 (by decide) areBlanks written ends
  have number (other : value.kind ≠ .null) :
      (readSize? (blanks ++ (text ++ rest))).toOption =
        ((value.below? 0x10000000000000000).map some).map fun meant => (meant, rest) := by
    obtain ⟨byte, tail, rfl, isFirst⟩ := exists_first_of_written written
    have notNull : byte ≠ letter 'n' := by
      rintro rfl
      exact other (Option.some.inj isFirst).symm
    have found := skipBlanks_first areBlanks isFirst (tail ++ rest)
    rw [List.cons_append] at natural ⊢
    rw [toOption_readSize?_of_ne found notNull, natural, Option.map_map, Option.map_map]
    rfl
  cases value with
  | null =>
      cases written with
      | scalar isScalar =>
          cases isScalar with
          | null => exact toOption_readSize?_null areBlanks rest
  | number parts => exact number nofun
  | boolean truth => exact number nofun
  | string body => exact number nofun
  | list elements => exact number nofun
  | record members => exact number nofun

/-! ## Lists of words -/

theorem openList_list (expected : Expected) (areBlanks : Blanks blanks) (rest : Bytes) :
    openList expected (blanks ++ openBracket :: rest) = .ok rest := by
  have notBlank : isBlank openBracket = false := rfl
  simp only [openList, skipBlanks_mark areBlanks notBlank, if_true]

theorem exists_openList_error (expected : Expected) (areBlanks : Blanks blanks)
    (written : Written (.value value) text) (other : value.kind ≠ .list) (rest : Bytes) :
    ∃ failure, openList expected (blanks ++ (text ++ rest)) = .error failure := by
  obtain ⟨byte, tail, rfl, isFirst⟩ := exists_first_of_written written
  have notList : byte ≠ openBracket := by
    rintro rfl
    exact other (Option.some.inj isFirst).symm
  have found := skipBlanks_first areBlanks isFirst (tail ++ rest)
  refine ⟨mismatchAt expected byte (tail ++ rest), ?_⟩
  rw [List.cons_append]
  simp only [openList, found, notList, if_false]

/-- A reader that goes on from an opening bracket recognizes lists only. -/
theorem recognizes_list {reader : Reader A} {meaning : Value → Option A} (expected : Expected)
    (inside : Reader A)
    (opens : ∀ text, (reader text).toOption =
      (openList expected text).toOption.bind fun opened => (inside opened).toOption)
    (reads : ∀ {elements : List Value} {text : Bytes} (rest : Bytes),
      Written (.elements true elements) text →
      (inside (text ++ rest)).toOption =
        (meaning (.list elements)).map fun meant => (meant, rest))
    (refuses : ∀ value, value.kind ≠ .list → meaning value = none) :
    Recognizes reader meaning := by
  intro value blanks text rest areBlanks written _
  rw [opens]
  by_cases isList : value.kind = .list
  · cases written with
    | scalar isScalar => cases isScalar <;> cases isList
    | list isInside =>
        rw [List.cons_append, openList_list expected areBlanks]
        exact reads rest isInside
    | record _ => cases isList
  · obtain ⟨failure, unopened⟩ := exists_openList_error expected areBlanks written isList rest
    rw [unopened, refuses value isList]
    rfl

theorem words?_of_ne (other : value.kind ≠ .list) : value.words? = none := by
  cases value with
  | list elements => exact absurd rfl other
  | null => rfl
  | boolean truth => rfl
  | number parts => rfl
  | string body => rfl
  | record members => rfl

/-- Pushing one word and appending the others is appending all of them. -/
theorem map_append_push (done : Array Word) (word : Word) (more : Option (List Word))
    (rest : Bytes) :
    (more.map fun words => (done.push word ++ words.toArray, rest)) =
      (more.map (word :: ·)).map fun words => (done ++ words.toArray, rest) := by
  cases more with
  | none => rfl
  | some words =>
      show some (done.push word ++ words.toArray, rest) =
        some (done ++ (word :: words).toArray, rest)
      rw [push_append_toArray]

theorem mapM_word?_cons (value : Value) (more : List Value) :
    (value :: more).mapM Value.word? =
      value.word?.bind fun word => (more.mapM Value.word?).map (word :: ·) := by
  rw [List.mapM_cons]
  cases value.word? with
  | none => rfl
  | some word => cases more.mapM Value.word? <;> rfl

/-- The elements of a list are read one by one. -/
theorem toOption_readElements {elements : List Value} {done : Array Word}
    (written : Written (.elements first elements) text) (isFirst : done.isEmpty = first)
    (rest : Bytes) :
    (readElements done (text ++ rest)).toOption =
      (elements.mapM Value.word?).map fun words => (done ++ words.toArray, rest) := by
  induction elements generalizing first done text with
  | nil =>
      cases written with
      | @noElements _ blanks areBlanks =>
          have closed : readElements done (blanks ++ ([closeBracket] ++ rest)) = .ok (done, rest) :=
            readElements_finish (next_closes areBlanks .list done.isEmpty rest)
          rw [List.append_assoc, closed, List.mapM_nil]
          show some (done, rest) = some (done ++ #[], rest)
          rw [Array.append_empty]
  | cons value more inductionHypothesis =>
      cases written with
      | @element _ _ _ gap text remaining isGap isValue goesOn =>
          have found := next_written isGap isValue (remaining ++ rest)
          rw [← isFirst] at found
          have word := recognizes_word blanks_nil isValue (ends_elements goesOn rest)
          rw [List.nil_append] at word
          rw [List.append_assoc, List.append_assoc, toOption_readElements_entry found, word,
            mapM_word?_cons]
          cases value.word? with
          | none => rfl
          | some word =>
              show (readElements (done.push word) (remaining ++ rest)).toOption = _
              rw [inductionHypothesis goesOn Array.isEmpty_push, map_append_push]
              rfl

theorem recognizes_words : Recognizes readWords Value.cells? := by
  refine recognizes_list .sequence (readElements #[]) ?_ ?_ ?_
  · intro text
    unfold readWords
    cases openList .sequence text <;> rfl
  · intro elements text rest isInside
    rw [toOption_readElements isInside Array.isEmpty_empty rest, Value.cells?, Value.words?,
      Option.map_map]
    simp only [Array.empty_append]
    rfl
  · intro value other
    rw [Value.cells?, words?_of_ne other]
    rfl

theorem closeList_blanks (areBlanks : Blanks blanks) (rest : Bytes) :
    closeList (blanks ++ closeBracket :: rest) = .ok rest := by
  have notBlank : isBlank closeBracket = false := rfl
  simp only [closeList, skipBlanks_mark areBlanks notBlank, if_true]

theorem closeList_gap (isGap : Gap first gap) (begins : Begins .list byte) (rest : Bytes) :
    closeList (gap ++ byte :: rest) = .error .illFormed := by
  have notClosing : byte ≠ closeBracket := begins.notClosing
  cases isGap with
  | first areBlanks =>
      simp only [closeList, skipBlanks_mark areBlanks begins.notBlank, notClosing, if_false]
  | later blanksBefore _ =>
      have notBlank : isBlank comma = false := rfl
      have commaNe : comma ≠ closeBracket := by decide
      rw [List.append_assoc, List.cons_append]
      simp only [closeList, skipBlanks_mark blanksBefore notBlank, commaNe, if_false]

theorem toOption_readRemaining_entry {done : Array Word} {remaining : Nat}
    (found : next .list done.isEmpty text = .ok (.entry inside)) :
    (readRemaining done text (remaining + 1)).toOption =
      (readWord inside).toOption.bind fun read =>
        (readRemaining (done.push read.1) read.2 remaining).toOption := by
  simp only [readRemaining, found]
  cases readWord inside <;> rfl

/-- As many elements are read as are demanded, and then the list must end. -/
theorem toOption_readRemaining {elements : List Value} {done : Array Word}
    (written : Written (.elements first elements) text) (isFirst : done.isEmpty = first)
    (count : Nat) (rest : Bytes) :
    (readRemaining done (text ++ rest) count).toOption =
      if elements.length = count then
        (elements.mapM Value.word?).map fun words => (done ++ words.toArray, rest)
      else none := by
  induction count generalizing elements first done text with
  | zero =>
      cases written with
      | @noElements _ blanks areBlanks =>
          have closed : closeList (blanks ++ ([closeBracket] ++ rest)) = .ok rest :=
            closeList_blanks areBlanks rest
          rw [List.append_assoc, readRemaining, closed]
          show some (done, rest) = some (done ++ #[], rest)
          rw [Array.append_empty]
      | @element _ _ _ gap text remaining isGap isValue _ =>
          obtain ⟨byte, tail, rfl, isByte⟩ := exists_first_of_written isValue
          have unclosed := closeList_gap isGap (begins_of_first isByte .list)
          rw [List.append_assoc, List.cons_append, List.cons_append, readRemaining, unclosed]
          rfl
  | succ count inductionHypothesis =>
      cases written with
      | @noElements _ blanks areBlanks =>
          have ended : next .list done.isEmpty (blanks ++ ([closeBracket] ++ rest)) =
              .ok (.finish rest) := next_closes areBlanks .list done.isEmpty rest
          rw [List.append_assoc, readRemaining, ended]
          rfl
      | @element _ value more gap text remaining isGap isValue goesOn =>
          have found := next_written isGap isValue (remaining ++ rest)
          rw [← isFirst] at found
          have word := recognizes_word blanks_nil isValue (ends_elements goesOn rest)
          rw [List.nil_append] at word
          rw [List.append_assoc, List.append_assoc, toOption_readRemaining_entry found, word,
            mapM_word?_cons]
          simp only [List.length_cons, Nat.add_right_cancel_iff]
          cases value.word? with
          | none => exact (ite_self none).symm
          | some word =>
              show (readRemaining (done.push word) (remaining ++ rest) count).toOption = _
              rw [inductionHypothesis goesOn Array.isEmpty_push, map_append_push]
              rfl

theorem length_of_mapM_word? {elements : List Value} {words : List Word}
    (meant : elements.mapM Value.word? = some words) : words.length = elements.length := by
  induction elements generalizing words with
  | nil =>
      cases meant
      rfl
  | cons value more inductionHypothesis =>
      rw [mapM_word?_cons] at meant
      obtain ⟨word, _, meant⟩ := Option.bind_eq_some_iff.mp meant
      obtain ⟨others, othersMeant, rfl⟩ := Option.map_eq_some_iff.mp meant
      rw [List.length_cons, List.length_cons, inductionHypothesis othersMeant]

/-- Reads what follows the opening bracket of a list of exactly `count` words. -/
def readInside (count : Nat) : Reader (Vector Word count) := fun text =>
  match readRemaining #[] text count with
  | .error failure => .error failure
  | .ok (words, rest) =>
      if exact : words.size = count then .ok (⟨words, exact⟩, rest)
      else .error (.unfit (.wrongLength words.size (.words count)))

theorem toOption_readInside (count : Nat) (text : Bytes) :
    (readInside count text).toOption =
      (readRemaining #[] text count).toOption.bind fun read =>
        if exact : read.1.size = count then some (⟨read.1, exact⟩, read.2) else none := by
  unfold readInside
  cases readRemaining #[] text count with
  | error failure => rfl
  | ok read =>
      show (if exact : read.1.size = count then _ else _ : Except Failure _).toOption =
        if exact : read.1.size = count then _ else _
      split <;> rfl

theorem recognizes_wordsOf (count : Nat) :
    Recognizes (readWordsOf count) (Value.wordsOf? count) := by
  refine recognizes_list (.words count) (readInside count) ?_ ?_ ?_
  · intro text
    unfold readWordsOf
    cases openList (.words count) text <;> rfl
  · intro elements text rest isInside
    have read := toOption_readRemaining isInside Array.isEmpty_empty count rest
    rw [toOption_readInside, read, Value.wordsOf?, Value.words?]
    cases meant : elements.mapM Value.word? with
    | none =>
        rw [Option.map_none, ite_self]
        rfl
    | some words =>
        rw [← length_of_mapM_word? meant, Option.map_some, Array.empty_append]
        by_cases exact : words.length = count
        · simp [exact]
        · simp [exact]
  · intro value other
    rw [Value.wordsOf?, words?_of_ne other]
    rfl

/-! ## Members -/

/-- What follows a key: a colon and a value, with blanks around the colon. -/
def RecognizesMember (reader : Reader A) (meaning : Value → Option A) : Prop :=
  ∀ ⦃value : Value⦄ ⦃before after text rest : Bytes⦄, Blanks before → Blanks after →
    Written (.value value) text → Ends rest →
    (reader (before ++ colon :: (after ++ (text ++ rest)))).toOption =
      (meaning value).map fun meant => (meant, rest)

theorem recognizes_readOnce {reader : Reader A} {meaning : Value → Option A}
    (recognizes : Recognizes reader meaning) (key : String) (met : Bool) :
    RecognizesMember (readOnce key met reader)
      fun value => if met then none else meaning value := by
  intro value before after text rest blanksBefore blanksAfter written ends
  cases met with
  | true => rfl
  | false =>
      show (readMember reader _).toOption = _
      rw [readMember, expectColon_blanks blanksBefore]
      exact recognizes blanksAfter written ends

theorem skipMember_written {before after : Bytes} (blanksBefore : Blanks before)
    (blanksAfter : Blanks after) (written : Written (.value value) text) (ends : Ends rest) :
    skipMember (before ++ colon :: (after ++ (text ++ rest))) = .ok rest := by
  rw [skipMember, expectColon_blanks blanksBefore]
  exact skipValue_written blanksAfter written ends

/-- A record is gathered member by member, under the keys that the labels spell. -/
theorem toOption_readMembers {gatherer : Gatherer A} {step : A → String → Value → Option A}
    (recognizes : ∀ gathered key,
      RecognizesMember (gatherer.gather gathered key) (step gathered key))
    {labelled : List (Bytes × Value)} {members : List (String × Value)}
    (spelled : List.Forall₂ SpellsMember labelled members) {first : Bool} {text : Bytes}
    (written : Written (.members first labelled) text) (gathered : A) (rest : Bytes) :
    (readMembers gatherer gathered first (text ++ rest)).toOption =
      (members.foldlM (fun gathered member => step gathered member.1 member.2) gathered).map
        fun final => (final, rest) := by
  induction spelled generalizing first text gathered with
  | nil =>
      cases written with
      | @noMembers _ blanks areBlanks =>
          have ended : readMembers gatherer gathered first (blanks ++ ([closeBrace] ++ rest)) =
              .ok (gathered, rest) :=
            readMembers_finish (next_closes areBlanks .record first rest)
          rw [List.append_assoc, ended]
          rfl
  | @cons label member labels more spells _ inductionHypothesis =>
      obtain ⟨label, value⟩ := label
      obtain ⟨key, value⟩ := member
      obtain ⟨spells, rfl⟩ := spells
      cases written with
      | @member _ _ _ _ gap before after text remaining isGap _ blanksBefore blanksAfter isValue
          goesOn =>
          have begins : Begins .record quote := ⟨rfl, by decide⟩
          have found := next_gap isGap begins
          have labelled := readString_spells spells
          have gathers := recognizes gathered key blanksBefore blanksAfter isValue
            (ends_members goesOn rest)
          simp only [List.append_assoc, List.cons_append]
          rw [toOption_readMembers_entry (found _) (labelled _), gathers, List.foldlM_cons]
          cases step gathered key value with
          | none => rfl
          | some next => exact inductionHypothesis goesOn next

end RegisterMachine.Json
