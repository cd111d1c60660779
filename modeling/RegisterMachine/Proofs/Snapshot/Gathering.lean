import Mathlib.Tactic.MkIffOfInductiveProp
import RegisterMachine.Proofs.Json.Recognition
import RegisterMachine.Snapshot.Reader

/-!
Contract: the members of any record are gathered key by key.

Both readings take the members in the order in which they stand. What they have
gathered at the end nevertheless depends on the values under each key alone:
a key that may occur once gives the meaning of its only value, and a second
value is refused.

Owns: `valuesOf`, `HasOne`, what either reading gathers, the machine of a draft.
Does not own: whole texts (`Proofs.Snapshot.Acceptance`).
-/

namespace RegisterMachine.Snapshot

open Json Json.Mark

variable {A B : Type}

/-! ## One key -/

/-- The values of the members with this key, in their order. -/
def valuesOf (key : String) (members : List (String × Value)) : List Value :=
  (members.filter fun member => member.1 == key).map Prod.snd

/-- There is one member with this key, and its value has this meaning. -/
def HasOne (members : List (String × Value)) (key : String) (meaning : Value → Option A)
    (meant : A) : Prop :=
  ∃ value, valuesOf key members = [value] ∧ meaning value = some meant

/-- What a value adds under a key that may occur once. -/
def once (meaning : Value → Option A) (met : Option A) (value : Value) : Option (Option A) :=
  if met.isSome then none else (meaning value).map some

/-- What the values under a key that may occur once come to. -/
def met? (meaning : Value → Option A) (met : Option A) (values : List Value) : Option (Option A) :=
  values.foldlM (once meaning) met

theorem valuesOf_same (key : String) (value : Value) (members : List (String × Value)) :
    valuesOf key ((key, value) :: members) = value :: valuesOf key members := by
  simp [valuesOf]

theorem valuesOf_other {key other : String} (different : other ≠ key) (value : Value)
    (members : List (String × Value)) :
    valuesOf key ((other, value) :: members) = valuesOf key members := by
  simp [valuesOf, different]

theorem met?_cons (meaning : Value → Option A) (met : Option A) (value : Value)
    (values : List Value) :
    met? meaning met (value :: values) =
      (once meaning met value).bind fun next => met? meaning next values := by
  rw [met?, List.foldlM_cons]
  rfl

theorem met?_same_iff {meaning : Value → Option A} {met final : Option A} {key : String}
    {value : Value} {members : List (String × Value)} :
    met? meaning met (valuesOf key ((key, value) :: members)) = some final ↔
      ∃ next, once meaning met value = some next ∧
        met? meaning next (valuesOf key members) = some final := by
  rw [valuesOf_same, met?_cons, Option.bind_eq_some_iff]

/-- A second value under the key is refused. -/
theorem met?_some (meaning : Value → Option A) (meant : A) (values : List Value) :
    met? meaning (some meant) values = if values = [] then some (some meant) else none := by
  cases values <;> rfl

theorem met?_singleton (meaning : Value → Option A) (value : Value) (more : List Value) :
    met? meaning none (value :: more) =
      if more = [] then (meaning value).map some else none := by
  have first : once meaning none value = (meaning value).map some := rfl
  rw [met?_cons, first]
  cases meaning value with
  | none => rw [Option.map_none, ite_self]; rfl
  | some meant => exact met?_some meaning meant more

/-- The key has occurred once. -/
theorem met?_eq_some_some_iff {members : List (String × Value)} {key : String}
    {meaning : Value → Option A} {meant : A} :
    met? meaning none (valuesOf key members) = some (some meant) ↔
      HasOne members key meaning meant := by
  unfold HasOne
  cases valuesOf key members with
  | nil => simp [met?]
  | cons value more =>
      rw [met?_singleton]
      by_cases alone : more = []
      · simp [alone]
      · simp [alone]

/-- The key has not occurred. -/
theorem met?_eq_some_none_iff (meaning : Value → Option A) (values : List Value) :
    met? meaning none values = some none ↔ values = [] := by
  cases values with
  | nil => simp [met?]
  | cons value more =>
      rw [met?_singleton]
      by_cases alone : more = []
      · simp [alone]
      · simp [alone]

/-- A reader that takes a value once and stores it. -/
theorem recognizes_stored {reader : Reader A} {stored : Reader B} {meaning : Value → Option A}
    (recognizes : Recognizes reader meaning) (key : String) (met : Option A)
    (store : Option A → B)
    (stores : ∀ text, (stored text).toOption =
      (readOnce key met.isSome reader text).toOption.map
        fun read => (store (some read.1), read.2)) :
    RecognizesMember stored fun value => (once meaning met value).map store := by
  intro value before after text rest blanksBefore blanksAfter written ends
  have read := recognizes_readOnce recognizes key met.isSome blanksBefore blanksAfter written ends
  rw [stores, read]
  cases met with
  | some _ => rfl
  | none =>
      show ((meaning value).map fun meant => (meant, rest)).map
          (fun read => (store (some read.1), read.2)) =
        (((meaning value).map some).map store).map fun meant => (meant, rest)
      cases meaning value <;> rfl

/-! ## The first reading -/

/-- What a member adds to the version that has been met. -/
def meetVersion (found : Option Word) (key : String) (value : Value) : Option (Option Word) :=
  if key = "version" then once Value.word? found value else some found

theorem recognizes_gatherVersion (found : Option Word) (key : String) :
    RecognizesMember (gatherVersion found key) (meetVersion found key) := by
  by_cases isVersion : key = "version"
  · subst isVersion
    have meets : meetVersion found "version" =
        fun value => (once Value.word? found value).map id := by
      funext value
      rw [meetVersion, if_pos rfl, Option.map_id_fun, id]
    rw [meets]
    refine recognizes_stored recognizes_word "version" found id ?_
    intro text
    rw [gatherVersion, if_pos rfl]
    cases readOnce "version" found.isSome readWord text <;> rfl
  · intro value before after text rest blanksBefore blanksAfter written ends
    have skipped := skipMember_written blanksBefore blanksAfter written ends
    rw [gatherVersion, if_neg isVersion, skipped, meetVersion, if_neg isVersion]
    rfl

theorem foldlM_meetVersion (found : Option Word) (members : List (String × Value)) :
    members.foldlM (fun found member => meetVersion found member.1 member.2) found =
      met? Value.word? found (valuesOf "version" members) := by
  induction members generalizing found with
  | nil => rfl
  | cons member members inductionHypothesis =>
      obtain ⟨key, value⟩ := member
      rw [List.foldlM_cons]
      by_cases isVersion : key = "version"
      · subst isVersion
        rw [valuesOf_same, met?_cons, meetVersion, if_pos rfl]
        exact congrArg (Option.bind _) (funext inductionHypothesis)
      · rw [valuesOf_other isVersion, meetVersion, if_neg isVersion]
        exact inductionHypothesis found

/-! ## The second reading -/

namespace Draft

/-- What a member adds to the members that have been met. -/
def meet (draft : Draft) (key : String) : Value → Option Draft :=
  match key with
  | "version" => fun value =>
      (once Value.word? draft.version value).map fun met => { draft with version := met }
  | "memory" => fun value =>
      (once Value.cells? draft.memory value).map fun met => { draft with memory := met }
  | "pc" => fun value =>
      (once Value.counter? draft.pc value).map fun met => { draft with pc := met }
  | "registers" => fun value =>
      (once (Value.wordsOf? 8) draft.registers value).map
        fun met => { draft with registers := met }
  | "stack" => fun value =>
      (once Value.cells? draft.stack value).map fun met => { draft with stack := met }
  | "result" => fun value =>
      (once Value.word? draft.result value).map fun met => { draft with result := met }
  | _ => fun _ => some draft

theorem recognizes_take {reader : Reader A} {meaning : Value → Option A}
    (recognizes : Recognizes reader meaning) (key : String) (met : Option A)
    (store : Option A → Draft) :
    RecognizesMember (take key met reader fun value => store (some value))
      fun value => (once meaning met value).map store := by
  refine recognizes_stored recognizes key met store ?_
  intro text
  unfold take
  cases readOnce key met.isSome reader text <;> rfl

theorem recognizes_gather (draft : Draft) (key : String) :
    RecognizesMember (gather draft key) (draft.meet key) := by
  unfold gather meet
  split
  · exact recognizes_take recognizes_word "version" draft.version
      fun met => { draft with version := met }
  · exact recognizes_take recognizes_words "memory" draft.memory
      fun met => { draft with memory := met }
  · exact recognizes_take recognizes_counter "pc" draft.pc fun met => { draft with pc := met }
  · exact recognizes_take (recognizes_wordsOf 8) "registers" draft.registers
      fun met => { draft with registers := met }
  · exact recognizes_take recognizes_words "stack" draft.stack
      fun met => { draft with stack := met }
  · exact recognizes_take recognizes_word "result" draft.result
      fun met => { draft with result := met }
  · intro value before after text rest blanksBefore blanksAfter written ends
    simp only [skipMember_written blanksBefore blanksAfter written ends]
    rfl

/-- Every field has been met as the values under its key say. -/
@[mk_iff]
structure Collects (start : Draft) (members : List (String × Value)) (final : Draft) : Prop where
  version : met? Value.word? start.version (valuesOf "version" members) = some final.version
  memory : met? Value.cells? start.memory (valuesOf "memory" members) = some final.memory
  pc : met? Value.counter? start.pc (valuesOf "pc" members) = some final.pc
  registers : met? (Value.wordsOf? 8) start.registers (valuesOf "registers" members) =
    some final.registers
  stack : met? Value.cells? start.stack (valuesOf "stack" members) = some final.stack
  result : met? Value.word? start.result (valuesOf "result" members) = some final.result

theorem exists_stored_iff {added : Option A} {store : A → B} {Holds : B → Prop} :
    (∃ next, added.map store = some next ∧ Holds next) ↔
      ∃ met, added = some met ∧ Holds (store met) := by
  constructor
  · rintro ⟨_, stored, holds⟩
    obtain ⟨met, isMet, rfl⟩ := Option.map_eq_some_iff.mp stored
    exact ⟨met, isMet, holds⟩
  · rintro ⟨met, isMet, holds⟩
    exact ⟨store met, Option.map_eq_some_iff.mpr ⟨met, isMet, rfl⟩, holds⟩

/-- The first member decides what is met under its key, and the others decide the rest. -/
theorem collects_cons_iff {start final : Draft} {key : String} {value : Value}
    {members : List (String × Value)} :
    start.Collects ((key, value) :: members) final ↔
      ∃ next, start.meet key value = some next ∧ next.Collects members final := by
  by_cases isVersion : key = "version"
  · subst isVersion
    rw [meet, exists_stored_iff]
    simp (disch := decide) only [collects_iff, valuesOf_other, met?_same_iff]
    constructor
    · rintro ⟨⟨met, isMet, version⟩, rest⟩
      exact ⟨met, isMet, version, rest⟩
    · rintro ⟨met, isMet, version, rest⟩
      exact ⟨⟨met, isMet, version⟩, rest⟩
  by_cases isMemory : key = "memory"
  · subst isMemory
    rw [meet, exists_stored_iff]
    simp (disch := decide) only [collects_iff, valuesOf_other, met?_same_iff]
    constructor
    · rintro ⟨version, ⟨met, isMet, memory⟩, rest⟩
      exact ⟨met, isMet, version, memory, rest⟩
    · rintro ⟨met, isMet, version, memory, rest⟩
      exact ⟨version, ⟨met, isMet, memory⟩, rest⟩
  by_cases isPc : key = "pc"
  · subst isPc
    rw [meet, exists_stored_iff]
    simp (disch := decide) only [collects_iff, valuesOf_other, met?_same_iff]
    constructor
    · rintro ⟨version, memory, ⟨met, isMet, pc⟩, rest⟩
      exact ⟨met, isMet, version, memory, pc, rest⟩
    · rintro ⟨met, isMet, version, memory, pc, rest⟩
      exact ⟨version, memory, ⟨met, isMet, pc⟩, rest⟩
  by_cases isRegisters : key = "registers"
  · subst isRegisters
    rw [meet, exists_stored_iff]
    simp (disch := decide) only [collects_iff, valuesOf_other, met?_same_iff]
    constructor
    · rintro ⟨version, memory, pc, ⟨met, isMet, registers⟩, rest⟩
      exact ⟨met, isMet, version, memory, pc, registers, rest⟩
    · rintro ⟨met, isMet, version, memory, pc, registers, rest⟩
      exact ⟨version, memory, pc, ⟨met, isMet, registers⟩, rest⟩
  by_cases isStack : key = "stack"
  · subst isStack
    rw [meet, exists_stored_iff]
    simp (disch := decide) only [collects_iff, valuesOf_other, met?_same_iff]
    constructor
    · rintro ⟨version, memory, pc, registers, ⟨met, isMet, stack⟩, rest⟩
      exact ⟨met, isMet, version, memory, pc, registers, stack, rest⟩
    · rintro ⟨met, isMet, version, memory, pc, registers, stack, rest⟩
      exact ⟨version, memory, pc, registers, ⟨met, isMet, stack⟩, rest⟩
  by_cases isResult : key = "result"
  · subst isResult
    rw [meet, exists_stored_iff]
    simp (disch := decide) only [collects_iff, valuesOf_other, met?_same_iff]
    constructor
    · rintro ⟨version, memory, pc, registers, stack, ⟨met, isMet, result⟩⟩
      exact ⟨met, isMet, version, memory, pc, registers, stack, result⟩
    · rintro ⟨met, isMet, version, memory, pc, registers, stack, result⟩
      exact ⟨version, memory, pc, registers, stack, ⟨met, isMet, result⟩⟩
  -- A member with any other key is passed over.
  have kept : start.meet key value = some start := by
    unfold meet
    split <;> first | contradiction | rfl
  simp only [kept, Option.some.injEq, exists_eq_left', collects_iff, valuesOf_other isVersion,
    valuesOf_other isMemory, valuesOf_other isPc, valuesOf_other isRegisters,
    valuesOf_other isStack, valuesOf_other isResult]

theorem foldlM_meet_eq_some_iff (start final : Draft) (members : List (String × Value)) :
    members.foldlM (fun draft member => draft.meet member.1 member.2) start = some final ↔
      start.Collects members final := by
  induction members generalizing start with
  | nil =>
      cases start
      cases final
      simp [collects_iff, valuesOf, met?]
  | cons member members inductionHypothesis =>
      rw [List.foldlM_cons, Option.bind_eq_bind, Option.bind_eq_some_iff, collects_cons_iff]
      simp only [inductionHypothesis]

theorem machine_eq_ok_iff (draft : Draft) (machine : Machine) :
    draft.machine = .ok machine ↔
      (∃ version, draft.version = some version) ∧ draft.memory = some machine.memory.cells ∧
        draft.registers = some machine.registers.cells ∧
        draft.stack = some machine.stack.reverse.toArray ∧ draft.result = some machine.result ∧
        draft.pc.join = machine.pc := by
  obtain ⟨version, memory, pc, registers, stack, result⟩ := draft
  rcases version with _ | version
  · simp [Draft.machine, require]
  rcases memory with _ | memory
  · simp [Draft.machine, require]
  rcases registers with _ | registers
  · simp [Draft.machine, require]
  rcases stack with _ | stack
  · simp [Draft.machine, require]
  rcases result with _ | result
  · simp [Draft.machine, require]
  obtain ⟨⟨cells⟩, ⟨file⟩, entries, counter, code⟩ := machine
  show Except.ok (⟨⟨memory⟩, ⟨registers⟩, stack.toList.reverse, pc.join, result⟩ : Machine) = _ ↔ _
  constructor
  · intro same
    cases same
    refine ⟨⟨version, rfl⟩, rfl, rfl, ?_, rfl, rfl⟩
    rw [List.reverse_reverse]
  · rintro ⟨_, isMemory, isRegisters, isStack, isResult, isCounter⟩
    cases isMemory
    cases isRegisters
    cases isStack
    cases isResult
    show Except.ok (⟨_, _, entries.reverse.reverse, pc.join, _⟩ : Machine) = _
    rw [List.reverse_reverse, isCounter]

end Draft

end RegisterMachine.Snapshot
