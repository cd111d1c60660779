import Mathlib.Tactic.SplitIfs
import RegisterMachine.Listing

/-!
Contract: an event or a row is shown on one line.

The line of an instruction consists of numbers, names and fixed marks, and shows
the character that the instruction prints. That one is quoted, and the quoted
form of a line end has no line end in it.

Owns: texts on one line, and that trace lines and rows of a listing are such.
Does not own: the file that the lines are written to (`Proofs.Session.Delivery`).
-/

namespace RegisterMachine

namespace Text

/-- The character neither ends a line nor moves back to its beginning. -/
def staysOnLine (character : Char) : Bool := character != '\n' && character != '\r'

/-- The text has neither line feeds nor carriage returns. -/
def OnOneLine (text : String) : Prop := text.toList.all staysOnLine = true

instance (text : String) : Decidable (OnOneLine text) :=
  inferInstanceAs (Decidable (text.toList.all staysOnLine = true))

/-- A text on one line has no character that leaves it. -/
theorem notMem_of_onOneLine {text : String} (shown : OnOneLine text) {character : Char}
    (leaves : staysOnLine character = false) : character ∉ text.toList := by
  intro member
  rw [List.all_eq_true.mp shown character member] at leaves
  contradiction

@[simp] theorem onOneLine_append {first second : String} :
    OnOneLine (first ++ second) ↔ OnOneLine first ∧ OnOneLine second := by
  simp only [OnOneLine, String.toList_append, List.all_append, Bool.and_eq_true]

@[simp] theorem onOneLine_ofList {characters : List Char} :
    OnOneLine (String.ofList characters) ↔ characters.all staysOnLine = true := by
  rw [OnOneLine, String.toList_ofList]

theorem onOneLine_intercalate {separator : String} {texts : List String}
    (between : OnOneLine separator) (each : ∀ text ∈ texts, OnOneLine text) :
    OnOneLine (separator.intercalate texts) := by
  induction texts with
  | nil => rfl
  | cons first rest inductionHypothesis =>
      obtain ⟨ofFirst, ofRest⟩ := List.forall_mem_cons.mp each
      cases rest with
      | nil => rwa [String.intercalate_singleton]
      | cons second others =>
          rw [String.intercalate_cons_cons, onOneLine_append, onOneLine_append]
          exact ⟨⟨ofFirst, between⟩, inductionHypothesis ofRest⟩

/-! ## Digits -/

theorem staysOnLine_digitChar (digit : Nat) : staysOnLine digit.digitChar = true := by
  have notFeed : digit.digitChar ≠ '\n' := Nat.digitChar_ne '\n' (by decide)
  have notReturn : digit.digitChar ≠ '\r' := Nat.digitChar_ne '\r' (by decide)
  simp [staysOnLine, notFeed, notReturn]

theorem all_toDigits {base : Nat} (large : 1 < base) (value : Nat) :
    (Nat.toDigits base value).all staysOnLine = true := by
  induction value using Nat.strongRecOn with
  | ind value inductionHypothesis =>
      rw [Nat.toDigits_eq_if large]
      split
      · simp [staysOnLine_digitChar]
      · have smaller : value / base < value := Nat.div_lt_self (by omega) large
        simp [inductionHypothesis _ smaller, staysOnLine_digitChar]

@[simp] theorem onOneLine_toString (value : Nat) : OnOneLine (toString value) :=
  onOneLine_ofList.mpr (all_toDigits (by decide) value)

/-! ## Quoted characters -/

theorem all_codeEscape (character : Char) : (codeEscape character).all staysOnLine = true := by
  have digits : (Nat.toDigits 16 character.toNat).all staysOnLine = true :=
    all_toDigits (by decide) _
  rw [codeEscape, List.all_append, List.all_append, digits]
  decide

theorem all_escaped (quote character : Char) :
    (escaped quote character).all staysOnLine = true := by
  unfold escaped
  split_ifs with isNull isTab isReturn isFeed isMark isCoded
  · decide
  · decide
  · decide
  · decide
  · have staysIn : staysOnLine character = true := by simp [staysOnLine, isFeed, isReturn]
    rw [List.all_cons, List.all_cons, staysIn]
    decide
  · exact all_codeEscape character
  · simp [staysOnLine, isFeed, isReturn]

@[simp] theorem onOneLine_quotedChar (character : Char) : OnOneLine (quotedChar character) := by
  rw [quotedChar, onOneLine_ofList, List.all_append, List.all_append, all_escaped]
  decide

end Text

namespace Listing

open Text

theorem onOneLine_alignRight {columns : Nat} {text : String} (shown : OnOneLine text) :
    OnOneLine (alignRight columns text) := by
  have blank : staysOnLine ' ' = true := by decide
  rw [alignRight, onOneLine_ofList, List.leftpad, List.all_append, shown]
  simp [blank]

theorem onOneLine_inBraces {text : String} (shown : OnOneLine text) :
    OnOneLine (inBraces text) := by
  rw [inBraces, onOneLine_append, onOneLine_append]
  exact ⟨⟨by decide, shown⟩, by decide⟩

theorem onOneLine_mnemonic (opcode : Opcode) : OnOneLine opcode.mnemonic := by
  cases opcode <;> decide

theorem onOneLine_name (register : Register) : OnOneLine register.name := by
  rw [Register.name, onOneLine_append]
  exact ⟨by decide, onOneLine_toString _⟩

theorem onOneLine_of_glyph? {opcode : Opcode} {value : Word} {glyph : String}
    (shown : glyph? opcode value = some glyph) : OnOneLine glyph := by
  unfold glyph? at shown
  split at shown
  · obtain ⟨character, _, rfl⟩ := Option.map_eq_some_iff.mp shown
    rw [onOneLine_append]
    exact ⟨by decide, onOneLine_quotedChar character⟩
  · cases shown

theorem onOneLine_operandText (opcode : Opcode) (file? : Option RegisterFile) (operand : Word) :
    OnOneLine (operandText opcode file? operand) := by
  unfold operandText
  split
  · split
    · next glyph shown =>
        refine onOneLine_inBraces (onOneLine_append.mpr ⟨onOneLine_toString _, ?_⟩)
        exact onOneLine_of_glyph? shown
    · exact onOneLine_toString _
  · next register _ =>
      have name := onOneLine_name register
      split
      · exact onOneLine_inBraces name
      · next file =>
          have glyph : OnOneLine ((glyph? opcode (file.get register)).getD "") := by
            cases shown : glyph? opcode (file.get register) with
            | none => rfl
            | some glyph => exact onOneLine_of_glyph? shown
          apply onOneLine_inBraces
          simp only [onOneLine_append, onOneLine_toString, and_true]
          exact ⟨⟨name, by decide⟩, glyph⟩

theorem onOneLine_line {address : Nat} {name rest : String} (shownName : OnOneLine name)
    (shownRest : OnOneLine rest) : OnOneLine (line address name rest) := by
  simp only [line, onOneLine_append]
  exact ⟨⟨⟨⟨onOneLine_alignRight (onOneLine_toString _), by decide⟩,
    onOneLine_alignRight shownName⟩, by decide⟩, shownRest⟩

/-- No character that an instruction prints breaks its line. -/
theorem onOneLine_instructionLine (instruction : Instruction) (file? : Option RegisterFile) :
    OnOneLine (instructionLine instruction file?) := by
  refine onOneLine_line (onOneLine_mnemonic _) (onOneLine_intercalate (by decide) ?_)
  intro text member
  obtain ⟨operand, _, rfl⟩ := List.mem_map.mp member
  exact onOneLine_operandText _ _ _

theorem onOneLine_traceLine (event : TraceEvent) : OnOneLine (traceLine event) := by
  have mark : OnOneLine (if event.breaking then " [!!]" else "") := by
    split <;> decide
  rw [traceLine, onOneLine_append]
  exact ⟨onOneLine_instructionLine _ _, mark⟩

theorem onOneLine_rowLine (row : Row) : OnOneLine row.line := by
  cases row with
  | instruction shown => exact onOneLine_instructionLine shown none
  | data address value => exact onOneLine_line (by decide) (onOneLine_toString _)

end Listing

end RegisterMachine
