import Mathlib.Data.List.DropRight
import RegisterMachine.Host.Buffered

/-!
Contract: what becomes of text that is read and printed code by code.

Text is read as UTF-16 code units, but printed one code at a time. A character
of the basic plane is one unit, which is its own code. Any other character is
two units, and neither of them is the code of a character.

Owns: the characters that the code units of a text are printed as, and the
codes of queued lines.
Does not own: the program that prints what it reads (`Proofs.EchoedText`).
-/

namespace RegisterMachine.Text

/-! ## One character -/

/-- The character lies in the basic plane. -/
def IsBasic (character : Char) : Prop := character.toNat < 0x10000

instance : DecidablePred IsBasic := fun character => Nat.decLt character.toNat 0x10000

/-- What is printed for the code units of a character. -/
def printedByUnits (character : Char) : List Char :=
  if IsBasic character then [character] else ['\ufffd', '\ufffd']

/-- The code of a character of the basic plane is printed as this character. -/
theorem char_ofNat_of_isBasic {character : Char} (basic : IsBasic character) :
    Word.char (UInt16.ofNat character.toNat) = character := by
  have code : (UInt16.ofNat character.toNat).toNat = character.toNat :=
    UInt16.toNat_ofNat_of_lt basic
  have valid : (UInt16.ofNat character.toNat).toNat.isValidChar := by
    rw [code]
    exact character.valid
  have found : Word.char? (UInt16.ofNat character.toNat) = some character := by
    rw [Word.char?, dif_pos valid]
    exact congrArg some (Char.toNat_inj.mp code)
  rw [Word.char, found, Option.getD_some]

/-- The code of a surrogate is no character. -/
theorem char_ofNat_of_surrogate {code : Nat} (least : 0xd800 ≤ code) (most : code ≤ 0xdfff) :
    Word.char (UInt16.ofNat code) = '\ufffd' := by
  have fits : code < 0x10000 := Nat.lt_of_le_of_lt most (by decide)
  have same : (UInt16.ofNat code).toNat = code := UInt16.toNat_ofNat_of_lt fits
  have invalid : ¬ (UInt16.ofNat code).toNat.isValidChar := by
    rw [same, Nat.isValidChar]
    omega
  rw [Word.char, Word.char?, dif_neg invalid, Option.getD_none]

theorem unitsOfChar_of_isBasic {character : Char} (basic : IsBasic character) :
    unitsOfChar character = [UInt16.ofNat character.toNat] := if_pos basic

/-- There are 0x100000 characters beyond the basic plane, and both units of each are surrogates. -/
theorem exists_unitsOfChar_of_not_isBasic {character : Char} (beyond : ¬ IsBasic character) :
    ∃ leading trailing : Nat,
      unitsOfChar character = [UInt16.ofNat leading, UInt16.ofNat trailing] ∧
      (0xd800 ≤ leading ∧ leading ≤ 0xdfff) ∧ (0xdc00 ≤ trailing ∧ trailing ≤ 0xdfff) := by
  have first : 0x10000 ≤ character.toNat := Nat.le_of_not_lt beyond
  have last : character.toNat < 0x110000 := by
    rcases character.valid with below | above
    · exact Nat.lt_trans below (by decide)
    · exact above.2
  exact ⟨_, _, if_neg beyond, by omega, by omega⟩

theorem map_char_unitsOfChar (character : Char) :
    (unitsOfChar character).map Word.char = printedByUnits character := by
  by_cases basic : IsBasic character
  · rw [unitsOfChar_of_isBasic basic, printedByUnits, if_pos basic, List.map_singleton,
      char_ofNat_of_isBasic basic]
  · obtain ⟨leading, trailing, units, leadingRange, trailingRange⟩ :=
      exists_unitsOfChar_of_not_isBasic basic
    rw [units, printedByUnits, if_neg basic, List.map_cons, List.map_singleton,
      char_ofNat_of_surrogate leadingRange.1 leadingRange.2,
      char_ofNat_of_surrogate (by omega) trailingRange.2]

/-! ## Whole texts -/

theorem map_char_units (characters : List Char) :
    (units characters).map Word.char = characters.flatMap printedByUnits := by
  rw [units, List.map_flatMap]
  exact congrArg characters.flatMap (funext map_char_unitsOfChar)

/-- A text is printed unchanged exactly if all of it lies in the basic plane. A character beyond it
is noticed where it stands, because what is printed there does lie in the basic plane. -/
theorem flatMap_printedByUnits_eq_self_iff (characters : List Char) :
    characters.flatMap printedByUnits = characters ↔
      ∀ character ∈ characters, IsBasic character := by
  induction characters with
  | nil => simp
  | cons character rest inductionHypothesis =>
      rw [List.flatMap_cons, List.forall_mem_cons, ← inductionHypothesis]
      by_cases basic : IsBasic character
      · rw [printedByUnits, if_pos basic, List.singleton_append, List.cons_inj_right]
        exact (and_iff_right basic).symm
      · rw [printedByUnits, if_neg basic]
        constructor
        · intro same
          have isReplacement : '\ufffd' = character := (List.cons_eq_cons.mp same).1
          exact absurd (isReplacement ▸ (by decide : IsBasic '\ufffd')) basic
        · exact fun both => absurd both.1 basic

/-! ## Queued lines -/

/-- The characters of a line up to the carriage returns and line feeds that end it. -/
def kept (line : String) : List Char :=
  line.toList.rdropWhile fun character => character = '\r' ∨ character = '\n'

theorem trimLineEnds_toList (line : String) : trimLineEnds line.toList = kept line := by
  have same : isLineEnd = fun character => decide (character = '\r' ∨ character = '\n') := by
    funext character
    rw [isLineEnd, Bool.decide_or]
    rfl
  rw [trimLineEnds, same]
  rfl

/-- The text of queued lines: each line without its end, and a line feed. -/
def queuedText (lines : List String) : List Char := lines.flatMap fun line => kept line ++ ['\n']

theorem map_char_flatMap_lineCodes (lines : List String) :
    (lines.flatMap lineCodes).map Word.char = (queuedText lines).flatMap printedByUnits := by
  rw [queuedText, List.map_flatMap, List.flatMap_assoc]
  apply congrArg lines.flatMap
  funext line
  have lineEnd : ['\n'].flatMap printedByUnits = ['\n'] := rfl
  rw [lineCodes, List.map_append, map_char_units, trimLineEnds_toList, List.flatMap_append,
    lineEnd]
  rfl

/-- Lines lie in the basic plane if what is kept of them does. -/
theorem forall_mem_queuedText_isBasic_iff (lines : List String) :
    (∀ character ∈ queuedText lines, IsBasic character) ↔
      ∀ line ∈ lines, ∀ character ∈ kept line, IsBasic character := by
  have lineFeed : IsBasic '\n' := by decide
  simp only [queuedText, List.forall_mem_flatMap, List.forall_mem_append, List.forall_mem_singleton,
    lineFeed, and_true]

end RegisterMachine.Text

namespace RegisterMachine.InputQueue

/-- Lines that are queued one after the other are queued as one text. -/
theorem pending_foldl_pushLine (queue : InputQueue) (lines : List String) :
    (lines.foldl pushLine queue).pending = queue.pending ++ lines.flatMap Text.lineCodes := by
  induction lines generalizing queue with
  | nil => exact (List.append_nil _).symm
  | cons line later inductionHypothesis =>
      rw [List.foldl_cons, inductionHypothesis, pending_pushLine, List.flatMap_cons,
        List.append_assoc]

end RegisterMachine.InputQueue
