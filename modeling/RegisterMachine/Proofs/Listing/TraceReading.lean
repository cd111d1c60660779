import RegisterMachine.Proofs.Listing.Legibility

/-!
Contract: a fetched instruction can be read off its trace line.

A trace line is the line of an instruction with the values of the registers
that its operands name, and a mark behind it if a breakpoint stopped the
machine. The mark ends with a bracket, as no operand does. So equal lines are
lines of the same instruction, with the same mark and the same values.

Owns: what a trace line tells of its event, and what it does not tell.
Does not own: the instruction of a line without values (`Proofs.Listing.Legibility`).
-/

namespace RegisterMachine

namespace Listing

open Text

/-! ## The mark of a breakpoint -/

/-- What follows the operands in a trace line. -/
def breakMark (breaking : Bool) : String := if breaking then " [!!]" else ""

theorem traceLine_eq_line (event : TraceEvent) :
    traceLine event =
      line event.instruction.address event.instruction.opcode.mnemonic
        (operandsText event.instruction.opcode (some event.registers)
          event.instruction.operands ++ breakMark event.breaking) := by
  rw [traceLine, instructionLine, line, line, breakMark, String.append_assoc]

/-- The text does not end as the mark does. -/
def Unmarked (text : String) : Prop := text.toList.getLast? ≠ some ']'

instance (text : String) : Decidable (Unmarked text) :=
  inferInstanceAs (Decidable (text.toList.getLast? ≠ some ']'))

theorem unmarked_append {first second : String} (ofFirst : Unmarked first)
    (ofSecond : Unmarked second) : Unmarked (first ++ second) := by
  unfold Unmarked at *
  rw [String.toList_append, List.getLast?_append]
  cases last : second.toList.getLast? with
  | none => exact ofFirst
  | some character =>
      rw [last] at ofSecond
      exact ofSecond

theorem unmarked_intercalate {separator : String} {texts : List String}
    (between : Unmarked separator) (each : ∀ text ∈ texts, Unmarked text) :
    Unmarked (separator.intercalate texts) := by
  induction texts with
  | nil => exact (by decide : Unmarked "")
  | cons first rest inductionHypothesis =>
      obtain ⟨ofFirst, ofRest⟩ := List.forall_mem_cons.mp each
      cases rest with
      | nil => rwa [String.intercalate_singleton]
      | cons second others =>
          rw [String.intercalate_cons_cons]
          exact unmarked_append (unmarked_append ofFirst between) (inductionHypothesis ofRest)

theorem unmarked_inBraces (text : String) : Unmarked (inBraces text) := by
  rw [Unmarked, toList_inBraces, List.getLast?_cons, List.getLast?_concat]
  decide

theorem unmarked_toString (value : Nat) : Unmarked (toString value) := fun last =>
  notMem_toString (by decide) value (List.mem_of_getLast? last)

theorem unmarked_operandText (opcode : Opcode) (file? : Option RegisterFile) (operand : Word) :
    Unmarked (operandText opcode file? operand) := by
  unfold operandText
  split
  · split
    · exact unmarked_inBraces _
    · exact unmarked_toString _
  · split <;> exact unmarked_inBraces _

theorem unmarked_operandsText (opcode : Opcode) (file? : Option RegisterFile)
    (operands : List Word) : Unmarked (operandsText opcode file? operands) := by
  refine unmarked_intercalate (by decide) ?_
  intro text member
  obtain ⟨operand, _, rfl⟩ := List.mem_map.mp member
  exact unmarked_operandText opcode file? operand

theorem not_unmarked_append_breakMark (text : String) :
    ¬ Unmarked (text ++ breakMark true) := by
  intro unmarked
  apply unmarked
  rw [String.toList_append, List.getLast?_append]
  rfl

/-- A mark can be told from the text before it. -/
theorem eq_of_append_breakMark {text other : String} {breaking otherBreaking : Bool}
    (unmarked : Unmarked text) (otherUnmarked : Unmarked other)
    (same : text ++ breakMark breaking = other ++ breakMark otherBreaking) :
    text = other ∧ breaking = otherBreaking := by
  have without (text : String) : text ++ breakMark false = text := String.append_empty
  cases breaking with
  | false =>
      rw [without] at same
      cases otherBreaking with
      | false => exact ⟨same.trans (without other), rfl⟩
      | true => exact absurd (same ▸ unmarked) (not_unmarked_append_breakMark other)
  | true =>
      cases otherBreaking with
      | false =>
          rw [without] at same
          exact absurd (same ▸ otherUnmarked) (not_unmarked_append_breakMark text)
      | true => exact ⟨String.append_left_inj _ |>.mp same, rfl⟩

/-! ## The values of registers -/

/-- A number is divided from what follows by the first character that is no digit. -/
theorem eq_of_digits {value other : Nat} {mark otherMark : Char} {rest others : List Char}
    (noDigit : mark.isDigit = false) (otherNoDigit : otherMark.isDigit = false)
    (same : (toString value).toList ++ mark :: rest =
      (toString other).toList ++ otherMark :: others) : value = other := by
  have digits (value : Nat) {mark : Char} (noDigit : mark.isDigit = false) (rest : List Char) :
      ((toString value).toList ++ mark :: rest).takeWhile Char.isDigit =
        (toString value).toList := by
    rw [List.takeWhile_append_of_pos fun _ member => isDigit_of_mem_toString member,
      List.takeWhile_cons_of_neg (by rw [noDigit]; exact Bool.false_ne_true), List.append_nil]
  have sameDigits := congrArg (List.takeWhile Char.isDigit) same
  rw [digits value noDigit, digits other otherNoDigit] at sameDigits
  exact eq_of_toString sameDigits

/-- Where values are known, that of a register follows its name, up to a brace or a colon. -/
theorem exists_toList_operandText (opcode : Opcode) (file : RegisterFile) {operand : Word}
    {register : Register} (names : Operand.register? operand = some register) :
    ∃ mark rest, mark.isDigit = false ∧
      (operandText opcode (some file) operand).toList =
        '\x7b' :: (register.name.toList ++
          ':' :: ((toString (file.get register).toNat).toList ++ mark :: rest)) := by
  have colon : ":".toList = [':'] := rfl
  simp only [operandText, names, toList_inBraces, String.toList_append, List.append_assoc, colon,
    List.singleton_append]
  cases shown : glyph? opcode (file.get register) with
  | none => exact ⟨'\x7d', [], by decide, by simp⟩
  | some glyph =>
      unfold glyph? at shown
      split at shown
      · obtain ⟨character, _, rfl⟩ := Option.map_eq_some_iff.mp shown
        exact ⟨':', (quotedChar character).toList ++ ['\x7d'], by decide, by simp⟩
      · cases shown

theorem get_eq_of_operandText {opcode : Opcode} {file other : RegisterFile} {operand : Word}
    {register : Register} (names : Operand.register? operand = some register)
    (same : operandText opcode (some file) operand = operandText opcode (some other) operand) :
    file.get register = other.get register := by
  obtain ⟨mark, rest, noDigit, isText⟩ := exists_toList_operandText opcode file names
  obtain ⟨otherMark, others, otherNoDigit, isOther⟩ :=
    exists_toList_operandText opcode other names
  rw [same, isOther] at isText
  have sameTail := List.append_cancel_left (List.tail_eq_of_cons_eq isText)
  have sameValue := eq_of_digits otherNoDigit noDigit (List.tail_eq_of_cons_eq sameTail)
  exact (UInt16.toNat_inj.mp sameValue).symm

/-- An operand shows of the registers only the one that it names. -/
theorem operandText_congr (opcode : Opcode) {file other : RegisterFile} {operand : Word}
    (agree : ∀ register, Operand.register? operand = some register →
      file.get register = other.get register) :
    operandText opcode (some file) operand = operandText opcode (some other) operand := by
  unfold operandText
  cases names : Operand.register? operand with
  | none => rfl
  | some register => simp only [agree register names]

theorem operandText_of_unnamed (opcode : Opcode) (file? : Option RegisterFile) {operand : Word}
    (unnamed : Operand.register? operand = none) :
    operandText opcode file? operand = operandText opcode none operand := by
  simp only [operandText, unnamed]

/-! ## Trace lines -/

/-- Two trace lines are the same exactly if their events agree in the instruction, in what the
breakpoints did, and in the registers that the operands name. -/
theorem traceLine_eq_iff {event other : TraceEvent} :
    traceLine event = traceLine other ↔
      event.instruction = other.instruction ∧ event.breaking = other.breaking ∧
        ∀ operand ∈ event.instruction.operands, ∀ register,
          Operand.register? operand = some register →
            event.registers.get register = other.registers.get register := by
  obtain ⟨instruction, file, breaking⟩ := event
  obtain ⟨otherInstruction, otherFile, otherBreaking⟩ := other
  rw [traceLine_eq_line, traceLine_eq_line]
  constructor
  · intro same
    obtain ⟨sameAddress, sameName, sameRest⟩ :=
      eq_of_line (isWord_mnemonic _) (isWord_mnemonic _) same
    obtain ⟨sameOperands, sameBreaking⟩ := eq_of_append_breakMark
      (unmarked_operandsText _ _ _) (unmarked_operandsText _ _ _) sameRest
    cases eq_of_shown sameAddress sameName sameOperands
    refine ⟨rfl, sameBreaking, fun operand member register names => ?_⟩
    have sameTexts := map_operandText_of_operandsText instruction.length_operands
      instruction.length_operands sameOperands
    exact get_eq_of_operandText names (List.map_inj_left.mp sameTexts operand member)
  · rintro ⟨sameInstruction, sameBreaking, agree⟩
    cases sameInstruction
    cases sameBreaking
    have sameTexts : instruction.operands.map (operandText instruction.opcode (some file)) =
        instruction.operands.map (operandText instruction.opcode (some otherFile)) :=
      List.map_inj_left.mpr fun operand member => operandText_congr _ (agree operand member)
    simp only [operandsText, sameTexts]

/-- The trace line of an instruction that no breakpoint stopped and that names no register is its
row of a listing. -/
theorem traceLine_eq_rowLine {event : TraceEvent} (executed : event.breaking = false)
    (unnamed : ∀ operand ∈ event.instruction.operands, Operand.register? operand = none) :
    traceLine event = (Row.instruction event.instruction).line := by
  have sameTexts := List.map_inj_left.mpr fun operand member =>
    operandText_of_unnamed event.instruction.opcode (some event.registers)
      (unnamed operand member)
  rw [traceLine, executed, if_neg Bool.false_ne_true, String.append_empty]
  simp only [Row.line, instructionLine, operandsText, sameTexts]

/-- A trace line tells all that it shows of an event: the instruction, whether a breakpoint stopped
it, and the value of each register that an operand names. It is one line, and where it shows no
register and no breakpoint it is the row of a listing. -/
theorem traceLine_tells_event :
    (∀ event other : TraceEvent, traceLine event = traceLine other ↔
      event.instruction = other.instruction ∧ event.breaking = other.breaking ∧
        ∀ operand ∈ event.instruction.operands, ∀ register,
          Operand.register? operand = some register →
            event.registers.get register = other.registers.get register) ∧
    (∀ event : TraceEvent,
      '\r' ∉ (traceLine event).toList ∧ '\n' ∉ (traceLine event).toList) ∧
    ∀ event : TraceEvent, event.breaking = false →
      (∀ operand ∈ event.instruction.operands, Operand.register? operand = none) →
      traceLine event = (Row.instruction event.instruction).line := by
  refine ⟨fun event other => traceLine_eq_iff, fun event => ?_, fun event => traceLine_eq_rowLine⟩
  exact ⟨notMem_of_onOneLine (onOneLine_traceLine event) (by decide),
    notMem_of_onOneLine (onOneLine_traceLine event) (by decide)⟩

/-- Printing R0 is stopped, with these values in R0 and R1. -/
def stoppedPrint (printed other : Word) : TraceEvent :=
  ⟨⟨7, .output, [32768], rfl⟩, (RegisterFile.zero.set 0 printed).set 1 other, true⟩

/-- A jump that names no register. -/
def literalJump : TraceEvent := ⟨⟨7, .jump, [93], rfl⟩, .zero, false⟩

/-- The code 93 is that of a bracket. R1, which is not named, may hold anything. -/
theorem traceLine_tells_event_of_stoppedPrint :
    traceLine (stoppedPrint 93 1) = traceLine (stoppedPrint 93 2) ∧
      (stoppedPrint 93 1).registers.get 0 = (stoppedPrint 93 2).registers.get 0 ∧
      traceLine (stoppedPrint 93 1) ≠ traceLine (stoppedPrint 94 1) ∧
      traceLine literalJump = (Row.instruction literalJump.instruction).line := by
  obtain ⟨reads, _, isRow⟩ := traceLine_tells_event
  have same : traceLine (stoppedPrint 93 1) = traceLine (stoppedPrint 93 2) := rfl
  have named : 32768 ∈ (stoppedPrint 93 1).instruction.operands := List.mem_singleton_self _
  refine ⟨same, ?_, ?_, isRow literalJump rfl (List.forall_mem_singleton.mpr (by decide))⟩
  · exact ((reads _ _).mp same).2.2 32768 named 0 (by decide)
  · intro equal
    have sameValue := ((reads _ _).mp equal).2.2 32768 named 0 (by decide)
    exact absurd sameValue (by decide)

end Listing

end RegisterMachine
