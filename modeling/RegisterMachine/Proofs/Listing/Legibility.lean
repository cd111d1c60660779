import RegisterMachine.Proofs.Listing.Tiling
import RegisterMachine.Proofs.TraceLines

/-!
Contract: what a listing shows can be read off its text.

The parts of a line are divided by marks that do not occur in them: the address
and the name by blanks, the operands by commas, and the number of an operand by
the mark that follows it. So equal lines show equal rows. Lines are divided by
their ends, and since rows cover memory, equal listings show equal memories.

Owns: the parts of equal lines, the rows of equal texts, listings of memory.
Does not own: which rows a listing has (`Proofs.Listing.Tiling`).
-/

namespace RegisterMachine

namespace Text

/-! ## Divided texts -/

/-- A mark that occurs in neither of two texts before it divides equal texts alike. -/
theorem eq_of_divided {mark : Char} {first second rest others : List Char}
    (notFirst : mark ∉ first) (notSecond : mark ∉ second)
    (same : first ++ mark :: rest = second ++ mark :: others) :
    first = second ∧ rest = others := by
  induction first generalizing second with
  | nil =>
      cases second with
      | nil => exact ⟨rfl, List.tail_eq_of_cons_eq same⟩
      | cons character _ =>
          cases List.head_eq_of_cons_eq same
          exact absurd List.mem_cons_self notSecond
  | cons character more inductionHypothesis =>
      cases second with
      | nil =>
          cases List.head_eq_of_cons_eq same
          exact absurd List.mem_cons_self notFirst
      | cons other others =>
          obtain ⟨rfl, sameMore⟩ := List.cons.inj same
          obtain ⟨rfl, sameRest⟩ := inductionHypothesis (List.not_mem_of_not_mem_cons notFirst)
            (List.not_mem_of_not_mem_cons notSecond) sameMore
          exact ⟨rfl, sameRest⟩

/-- The text has at least one character, and no blank. -/
def IsWord (text : String) : Prop := text.toList ≠ [] ∧ ' ' ∉ text.toList

instance (text : String) : Decidable (IsWord text) :=
  inferInstanceAs (Decidable (text.toList ≠ [] ∧ ' ' ∉ text.toList))

theorem toList_toString (value : Nat) : (toString value).toList = Nat.toDigits 10 value :=
  String.toList_ofList

theorem isDigit_of_mem_toString {value : Nat} {character : Char}
    (member : character ∈ (toString value).toList) : character.isDigit = true := by
  rw [toList_toString] at member
  exact Nat.isDigit_of_mem_toDigits (by decide) (by decide) member

theorem notMem_toString {character : Char} (noDigit : character.isDigit = false) (value : Nat) :
    character ∉ (toString value).toList := by
  intro member
  rw [isDigit_of_mem_toString member] at noDigit
  contradiction

theorem toList_toString_ne_nil (value : Nat) : (toString value).toList ≠ [] := by
  rw [toList_toString]
  exact Nat.toDigits_ne_nil

theorem isWord_toString (value : Nat) : IsWord (toString value) :=
  ⟨toList_toString_ne_nil value, notMem_toString (by decide) value⟩

theorem eq_of_toString {value other : Nat}
    (same : (toString value).toList = (toString other).toList) : value = other := by
  have sameDigits : Nat.toDigits 10 value = Nat.toDigits 10 other := by
    rw [← toList_toString, ← toList_toString, same]
  calc value = Nat.ofDigitChars 10 (Nat.toDigits 10 value) 0 :=
        Nat.ofDigitChars_ten_toDigits.symm
    _ = Nat.ofDigitChars 10 (Nat.toDigits 10 other) 0 := by rw [sameDigits]
    _ = other := Nat.ofDigitChars_ten_toDigits

end Text

namespace Listing

open Text

/-! ## Lines -/

theorem dropWhile_alignRight {columns : Nat} {text : String} (isWord : IsWord text)
    (rest : List Char) :
    ((alignRight columns text).toList ++ rest).dropWhile (· == ' ') = text.toList ++ rest := by
  obtain ⟨character, more, isText⟩ := List.exists_cons_of_ne_nil isWord.1
  have notBlank : character ≠ ' ' := by
    rintro rfl
    exact isWord.2 (isText ▸ List.mem_cons_self)
  rw [alignRight, String.toList_ofList, List.leftpad, List.append_assoc,
    List.dropWhile_append_of_pos (by simp), isText, List.cons_append, List.dropWhile_cons]
  simp [notBlank]

/-- An aligned word is divided from what follows by the first blank after its alignment. -/
theorem eq_of_alignRight {columns : Nat} {text other : String} {rest others : List Char}
    (isWord : IsWord text) (otherIsWord : IsWord other)
    (same : (alignRight columns text).toList ++ ' ' :: rest =
      (alignRight columns other).toList ++ ' ' :: others) : text = other ∧ rest = others := by
  have dropped := congrArg (List.dropWhile (· == ' ')) same
  rw [dropWhile_alignRight isWord, dropWhile_alignRight otherIsWord] at dropped
  obtain ⟨sameText, sameRest⟩ := eq_of_divided isWord.2 otherIsWord.2 dropped
  exact ⟨String.toList_inj.mp sameText, sameRest⟩

theorem toList_line (address : Nat) (name rest : String) :
    (line address name rest).toList =
      (alignRight addressColumns (toString address)).toList ++
        ' ' :: '|' :: ' ' :: ((alignRight nameColumns name).toList ++ ' ' :: rest.toList) := by
  simp [line]

/-- Equal lines have equal parts. -/
theorem eq_of_line {address other : Nat} {name otherName rest others : String}
    (isWord : IsWord name) (otherIsWord : IsWord otherName)
    (same : line address name rest = line other otherName others) :
    address = other ∧ name = otherName ∧ rest = others := by
  have sameCharacters := congrArg String.toList same
  rw [toList_line, toList_line] at sameCharacters
  obtain ⟨sameAddress, afterAddress⟩ :=
    eq_of_alignRight (isWord_toString address) (isWord_toString other) sameCharacters
  obtain ⟨sameName, afterName⟩ := eq_of_alignRight isWord otherIsWord
    (List.tail_eq_of_cons_eq (List.tail_eq_of_cons_eq afterAddress))
  exact ⟨eq_of_toString (congrArg String.toList sameAddress), sameName,
    String.toList_inj.mp afterName⟩

theorem isWord_mnemonic (opcode : Opcode) : IsWord opcode.mnemonic := by
  cases opcode <;> decide

theorem find?_mnemonic (opcode : Opcode) :
    (Opcode.all.find? fun other => other.mnemonic == opcode.mnemonic) = some opcode := by
  cases opcode <;> decide

theorem eq_of_mnemonic {opcode other : Opcode} (same : opcode.mnemonic = other.mnemonic) :
    opcode = other := by
  have found := find?_mnemonic opcode
  rw [same, find?_mnemonic] at found
  exact (Option.some.inj found).symm

/-! ## Operands -/

/-- The forms in which an operand is shown. -/
inductive OperandForm (operand : Word) : List Char → Prop where
  | number (unnamed : Operand.register? operand = none) :
      OperandForm operand (toString operand.toNat).toList
  | glyph (unnamed : Operand.register? operand = none) (shown : List Char) :
      OperandForm operand ('\x7b' :: ((toString operand.toNat).toList ++ ':' :: shown))
  | register {register : Register} (names : Operand.register? operand = some register)
      (value : List Char) :
      OperandForm operand ('\x7b' :: 'R' :: ((toString register.val).toList ++ value))

theorem toList_inBraces (text : String) :
    (inBraces text).toList = '\x7b' :: (text.toList ++ ['\x7d']) := by
  simp [inBraces]

theorem toList_name (register : Register) :
    register.name.toList = 'R' :: (toString register.val).toList := by
  simp [Register.name, toString]

theorem operandForm (opcode : Opcode) (file? : Option RegisterFile) (operand : Word) :
    OperandForm operand (operandText opcode file? operand).toList := by
  unfold operandText
  split
  · next unnamed =>
      split
      · next glyph shown =>
          unfold glyph? at shown
          split at shown
          · obtain ⟨character, _, rfl⟩ := Option.map_eq_some_iff.mp shown
            rw [toList_inBraces, String.toList_append, String.toList_append, List.append_assoc]
            exact .glyph unnamed _
          · cases shown
      · exact .number unnamed
  · next register names =>
      split
      · rw [toList_inBraces, toList_name]
        exact .register names _
      · rw [toList_inBraces, String.toList_append, String.toList_append, String.toList_append,
          toList_name]
        simp only [List.cons_append, List.append_assoc]
        exact .register names _

theorem head_toString_ne {character : Char} (noDigit : character.isDigit = false) (value : Nat)
    (rest : List Char) {others : List Char} :
    (toString value).toList ++ rest ≠ character :: others := by
  intro same
  obtain ⟨first, more, isText⟩ := List.exists_cons_of_ne_nil (toList_toString_ne_nil value)
  rw [isText] at same
  have member : first ∈ (toString value).toList := isText ▸ List.mem_cons_self
  cases List.head_eq_of_cons_eq same
  exact notMem_toString noDigit value member

theorem length_toString_register (register : Register) :
    (toString register.val).toList.length = 1 := by
  revert register
  decide

/-- An operand can be read off each of its forms. -/
theorem OperandForm.unique {operand other : Word} {text : List Char}
    (form : OperandForm operand text) (otherForm : OperandForm other text) : operand = other := by
  have brace : ('\x7b' : Char).isDigit = false := by decide
  have named : ('R' : Char).isDigit = false := by decide
  have colon : (':' : Char).isDigit = false := by decide
  cases form with
  | number _ =>
      generalize isText : (toString operand.toNat).toList = text at otherForm
      cases otherForm with
      | number _ => exact UInt16.toNat_inj.mp (eq_of_toString isText)
      | glyph _ _ | register _ _ =>
          rw [← List.append_nil (toString operand.toNat).toList] at isText
          exact absurd isText (head_toString_ne brace _ _)
  | glyph _ shown =>
      generalize isText : '\x7b' :: ((toString operand.toNat).toList ++ ':' :: shown) = text
        at otherForm
      cases otherForm with
      | number _ =>
          rw [← List.append_nil (toString other.toNat).toList] at isText
          exact absurd isText.symm (head_toString_ne brace _ _)
      | glyph _ _ =>
          have divided := eq_of_divided (notMem_toString colon _) (notMem_toString colon _)
            (List.tail_eq_of_cons_eq isText)
          exact UInt16.toNat_inj.mp (eq_of_toString divided.1)
      | register _ _ =>
          exact absurd (List.tail_eq_of_cons_eq isText) (head_toString_ne named _ _)
  | @register register names value =>
      generalize isText : '\x7b' :: 'R' :: ((toString register.val).toList ++ value) = text
        at otherForm
      cases otherForm with
      | number _ =>
          rw [← List.append_nil (toString other.toNat).toList] at isText
          exact absurd isText.symm (head_toString_ne brace _ _)
      | glyph _ _ =>
          exact absurd (List.tail_eq_of_cons_eq isText).symm (head_toString_ne named _ _)
      | @register otherRegister otherNames _ =>
          have sameTail := List.tail_eq_of_cons_eq (List.tail_eq_of_cons_eq isText)
          have sameLength : (toString register.val).toList.length =
              (toString otherRegister.val).toList.length := by
            rw [length_toString_register, length_toString_register]
          have sameIndex := eq_of_toString (List.append_inj sameTail sameLength).1
          rw [← Operand.ofRegister_of_register? names,
            ← Operand.ofRegister_of_register? otherNames, Fin.ext sameIndex]

theorem eq_of_operandText {opcode otherOpcode : Opcode} {file? otherFile? : Option RegisterFile}
    {operand other : Word}
    (same : operandText opcode file? operand = operandText otherOpcode otherFile? other) :
    operand = other := by
  have form := operandForm opcode file? operand
  rw [same] at form
  exact form.unique (operandForm otherOpcode otherFile? other)

/-- Only a printed character can bring a comma into the text of an operand. -/
theorem notMem_operandText {opcode : Opcode} (notOutput : opcode ≠ .output)
    (file? : Option RegisterFile) (operand : Word) :
    ',' ∉ (operandText opcode file? operand).toList := by
  have noGlyph (value : Word) : glyph? opcode value = none := if_neg notOutput
  have noComma (value : Nat) : ',' ∉ Nat.toDigits 10 value := by
    rw [← toList_toString]
    exact notMem_toString (by decide) value
  unfold operandText
  cases Operand.register? operand with
  | none => simp [noGlyph, noComma]
  | some register =>
      cases file? with
      | none => simp [toList_inBraces, toList_name, noComma]
      | some file => simp [toList_inBraces, toList_name, noGlyph, noComma]

/-- As many texts without commas can be read off their succession with commas between. -/
theorem eq_of_intercalate {texts others : List String} (sameLength : texts.length = others.length)
    (noComma : ∀ text ∈ texts, ',' ∉ text.toList)
    (noOtherComma : ∀ text ∈ others, ',' ∉ text.toList)
    (same : ", ".intercalate texts = ", ".intercalate others) : texts = others := by
  induction texts generalizing others with
  | nil => exact (List.eq_nil_of_length_eq_zero sameLength.symm).symm
  | cons text more inductionHypothesis =>
      obtain ⟨other, otherMore, rfl⟩ :=
        List.exists_cons_of_length_eq_add_one sameLength.symm
      have sameMoreLength := Nat.add_right_cancel sameLength
      obtain ⟨inText, inMore⟩ := List.forall_mem_cons.mp noComma
      obtain ⟨inOther, inOtherMore⟩ := List.forall_mem_cons.mp noOtherComma
      cases more with
      | nil =>
          cases List.eq_nil_of_length_eq_zero sameMoreLength.symm
          rw [String.intercalate_singleton, String.intercalate_singleton] at same
          rw [same]
      | cons second rest =>
          obtain ⟨otherSecond, otherRest, rfl⟩ :=
            List.exists_cons_of_length_eq_add_one sameMoreLength.symm
          rw [String.intercalate_cons_cons, String.intercalate_cons_cons] at same
          have sameCharacters := congrArg String.toList same
          simp only [String.toList_append, List.append_assoc] at sameCharacters
          obtain ⟨sameText, sameTail⟩ := eq_of_divided inText inOther sameCharacters
          have sameRest := String.toList_inj.mp (List.tail_eq_of_cons_eq sameTail)
          rw [String.toList_inj.mp sameText,
            inductionHypothesis sameMoreLength inMore inOtherMore sameRest]

/-- The texts of the single operands can be read off the text of all. -/
theorem map_operandText_of_operandsText {opcode : Opcode} {file? otherFile? : Option RegisterFile}
    {operands others : List Word} (complete : operands.length = opcode.arity)
    (otherComplete : others.length = opcode.arity)
    (same : operandsText opcode file? operands = operandsText opcode otherFile? others) :
    operands.map (operandText opcode file?) = others.map (operandText opcode otherFile?) := by
  by_cases isOutput : opcode = .output
  · subst isOutput
    obtain ⟨operand, rfl⟩ := List.length_eq_one_iff.mp complete
    obtain ⟨other, rfl⟩ := List.length_eq_one_iff.mp otherComplete
    simp only [operandsText, List.map_cons, List.map_nil, String.intercalate_singleton] at same
    rw [List.map_cons, List.map_cons, same, List.map_nil, List.map_nil]
  · have noComma (file? : Option RegisterFile) (operands : List Word) :
        ∀ text ∈ operands.map (operandText opcode file?), ',' ∉ text.toList := by
      intro text member
      obtain ⟨operand, _, rfl⟩ := List.mem_map.mp member
      exact notMem_operandText isOutput file? operand
    refine eq_of_intercalate ?_ (noComma file? operands) (noComma otherFile? others) same
    rw [List.length_map, List.length_map, complete, otherComplete]

/-- Equal texts of operands show equal operands, whatever their registers hold. -/
theorem eq_of_operandsText {opcode : Opcode} {file? otherFile? : Option RegisterFile}
    {operands others : List Word} (complete : operands.length = opcode.arity)
    (otherComplete : others.length = opcode.arity)
    (same : operandsText opcode file? operands = operandsText opcode otherFile? others) :
    operands = others := by
  have sameTexts := map_operandText_of_operandsText complete otherComplete same
  refine List.ext_getElem (complete.trans otherComplete.symm) fun index inside otherInside => ?_
  have sameAt := congrArg (·[index]?) sameTexts
  simp only [List.getElem?_map, List.getElem?_eq_getElem inside,
    List.getElem?_eq_getElem otherInside, Option.map_some, Option.some.injEq] at sameAt
  exact eq_of_operandText sameAt

/-- An instruction can be read off the three parts of its line. -/
theorem eq_of_shown {shown other : Instruction} {file? otherFile? : Option RegisterFile}
    (sameAddress : shown.address = other.address)
    (sameName : shown.opcode.mnemonic = other.opcode.mnemonic)
    (sameOperands : operandsText shown.opcode file? shown.operands =
      operandsText other.opcode otherFile? other.operands) : shown = other := by
  obtain ⟨address, opcode, operands, complete⟩ := shown
  obtain ⟨otherAddress, otherOpcode, otherOperands, otherComplete⟩ := other
  cases sameAddress
  cases eq_of_mnemonic sameName
  cases eq_of_operandsText complete otherComplete sameOperands
  rfl

/-! ## Rows -/

theorem isWord_data : IsWord "data" := by decide

theorem data_ne_mnemonic (opcode : Opcode) : "data" ≠ opcode.mnemonic := by
  cases opcode <;> decide

/-- A row can be read off its line. -/
theorem eq_of_rowLine {row other : Row} (same : row.line = other.line) : row = other := by
  cases row with
  | instruction shown =>
      cases other with
      | instruction otherShown =>
          obtain ⟨sameAddress, sameName, sameOperands⟩ :=
            eq_of_line (isWord_mnemonic _) (isWord_mnemonic _) same
          rw [eq_of_shown sameAddress sameName sameOperands]
      | data _ _ =>
          have sameName := (eq_of_line (isWord_mnemonic _) isWord_data same).2.1
          exact absurd sameName.symm (data_ne_mnemonic _)
  | data address value =>
      cases other with
      | instruction otherShown =>
          have sameName := (eq_of_line isWord_data (isWord_mnemonic _) same).2.1
          exact absurd sameName (data_ne_mnemonic _)
      | data otherAddress otherValue =>
          obtain ⟨rfl, _, sameValue⟩ := eq_of_line isWord_data isWord_data same
          rw [UInt16.toNat_inj.mp (eq_of_toString (congrArg String.toList sameValue))]

/-! ## Listings -/

theorem notMem_rowLine (row : Row) : '\n' ∉ row.line.toList :=
  notMem_of_onOneLine (onOneLine_rowLine row) (by decide)

theorem toList_text_cons (row : Row) (rows : List Row) :
    (text (row :: rows)).toList = row.line.toList ++ '\n' :: (text rows).toList := by
  simp [text, String.join_cons]

theorem toList_text_cons_ne_nil (row : Row) (rows : List Row) :
    (text (row :: rows)).toList ≠ [] := by
  rw [toList_text_cons]
  exact List.append_ne_nil_of_right_ne_nil _ (List.cons_ne_nil _ _)

/-- A listing has as many line ends as rows. -/
theorem count_text (rows : List Row) : (text rows).toList.count '\n' = rows.length := by
  induction rows with
  | nil => rfl
  | cons row rows inductionHypothesis =>
      rw [toList_text_cons, List.count_append, List.count_cons_self, inductionHypothesis,
        List.count_eq_zero.mpr (notMem_rowLine row), Nat.zero_add, List.length_cons]

/-- The rows of a listing can be read off its text. -/
theorem eq_of_text {rows others : List Row} (same : text rows = text others) : rows = others := by
  have sameCharacters := congrArg String.toList same
  clear same
  induction rows generalizing others with
  | nil =>
      cases others with
      | nil => rfl
      | cons other others =>
          exact absurd sameCharacters.symm (toList_text_cons_ne_nil other others)
  | cons row rows inductionHypothesis =>
      cases others with
      | nil => exact absurd sameCharacters (toList_text_cons_ne_nil row rows)
      | cons other others =>
          rw [toList_text_cons, toList_text_cons] at sameCharacters
          obtain ⟨sameLine, sameRows⟩ :=
            eq_of_divided (notMem_rowLine row) (notMem_rowLine other) sameCharacters
          rw [eq_of_rowLine (String.toList_inj.mp sameLine), inductionHypothesis sameRows]

/-- The listing of all memory shows exactly its cells. -/
theorem cells_rows (memory : Memory) :
    (rows memory 0 memory.size true).flatMap Row.cells = memory.toList := by
  obtain ⟨finish, tiles⟩ := exists_tiles memory 0 memory.size
  have reached := tiles.reaches.1
  rw [Nat.min_self] at reached
  rw [tiles.cells, List.drop_zero, Nat.sub_zero]
  exact List.take_of_length_le reached

/-- Two memories have the same listing only if they are the same, cell by cell and in length; and
every listing has as many line ends as rows. -/
theorem text_tells_memory :
    (∀ memory other : Memory,
      text (rows memory 0 memory.size true) = text (rows other 0 other.size true) ↔
        memory = other) ∧
      ∀ memory start stop includeData,
        (text (rows memory start stop includeData)).toList.count '\n' =
          (rows memory start stop includeData).length := by
  refine ⟨fun memory other => ⟨fun same => ?_, fun same => by rw [same]⟩,
    fun memory start stop includeData => count_text _⟩
  have sameCells : memory.toList = other.toList := by
    rw [← cells_rows memory, eq_of_text same, cells_rows other]
  obtain ⟨⟨cells⟩⟩ := memory
  obtain ⟨⟨others⟩⟩ := other
  rw [show cells = others from sameCells]

end Listing

end RegisterMachine
