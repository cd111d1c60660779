import RegisterMachine.Proofs.Json.Recognition
import RegisterMachine.Proofs.Snapshot.Numerals

/-!
Contract: what is written for a snapshot is JSON.

A word, a program counter or a list of words is written as the text of a JSON
value that means what was to be written, and members with plain keys make up a
record. So nothing about the readers is needed here beyond the meanings that
they give to values.

Owns: plain keys; words, program counters, lists of words and records as JSON.
Does not own: the members of a machine (`Proofs.Snapshot.RoundTrip`).
-/

namespace RegisterMachine.Snapshot

open Json Json.Mark

/-! ## Keys -/

/-- A visible ASCII character that needs no escape. -/
def isPlain (character : Char) : Bool :=
  32 ≤ character.toNat && character.toNat < 128 && character != '"' && character != '\\'

theorem spells_letters {characters : List Char} (plain : characters.all isPlain = true) :
    Spells characters (characters.map letter) := by
  induction characters with
  | nil => exact .done
  | cons character more inductionHypothesis =>
      rw [List.all_cons, Bool.and_eq_true] at plain
      have bounds := plain.1
      simp only [isPlain, Bool.and_eq_true, decide_eq_true_eq, bne_iff_ne] at bounds
      obtain ⟨⟨⟨visible, isAscii⟩, notQuote⟩, notBackslash⟩ := bounds
      have spelled : SpellsCharacter character [letter character] := by
        rw [← utf8EncodeChar_of_isAscii isAscii]
        exact .plain visible notQuote notBackslash
      exact .character spelled (inductionHypothesis plain.2)

/-! ## Numbers -/

def valueOfNatural (value : Nat) : Value := .number (partsOf value)

theorem written_ofNatural (value : Nat) :
    Written (.value (valueOfNatural value)) (ofNatural value) :=
  .scalar (.number (numberText_ofNatural value))

theorem below?_valueOfNatural {bound value : Nat} (bounded : value < bound) :
    (valueOfNatural value).below? bound = some value := by
  have natural : (partsOf value).natural? = some value := congrArg some (ofDigits_ofNatural value)
  rw [valueOfNatural, Value.below?, natural, Option.filter_some, if_pos (decide_eq_true bounded)]

theorem word?_valueOfNatural (word : Word) : (valueOfNatural word.toNat).word? = some word := by
  rw [Value.word?, below?_valueOfNatural word.toNat_lt, Option.map_some, UInt16.ofNat_toNat]

/-- Null stands for the program counter of a halted machine. -/
def valueOfCounter : Option Nat → Value
  | some address => valueOfNatural address
  | none => .null

theorem written_ofCounter (counter : Option Nat) :
    Written (.value (valueOfCounter counter)) (ofCounter counter) := by
  cases counter with
  | none => exact .scalar .null
  | some address => exact written_ofNatural address

theorem counter?_valueOfCounter {counter : Option Nat}
    (addressable : ∀ address, counter = some address → address < 0x10000000000000000) :
    (valueOfCounter counter).counter? = some counter := by
  cases counter with
  | none => rfl
  | some address =>
      show ((valueOfNatural address).below? 0x10000000000000000).map some = _
      rw [below?_valueOfNatural (addressable address rfl), Option.map_some]

/-! ## Lists of words -/

def valuesOfWords (words : List Word) : List Value :=
  words.map fun word => valueOfNatural word.toNat

theorem written_ofTail (words : List Word) :
    Written (.elements false (valuesOfWords words)) (ofTail words ++ [closeBracket]) := by
  induction words with
  | nil => exact .noElements blanks_nil
  | cons word more inductionHypothesis =>
      have gap : Gap false [comma] := .later blanks_nil blanks_nil
      have written := Written.element gap (written_ofNatural word.toNat) inductionHypothesis
      rw [ofTail, List.flatMap_cons, List.append_assoc]
      exact written

theorem written_ofElements (words : List Word) :
    Written (.elements true (valuesOfWords words)) (ofElements words ++ [closeBracket]) := by
  cases words with
  | nil => exact .noElements blanks_nil
  | cons word more =>
      have gap : Gap true [] := .first blanks_nil
      have written := Written.element gap (written_ofNatural word.toNat) (written_ofTail more)
      rw [ofElements, List.append_assoc]
      exact written

theorem written_ofWords (words : List Word) :
    Written (.value (.list (valuesOfWords words))) (ofWords words) :=
  .list (written_ofElements words)

theorem words?_valuesOfWords (words : List Word) :
    (Value.list (valuesOfWords words)).words? = some words := by
  show (valuesOfWords words).mapM Value.word? = some words
  induction words with
  | nil => rfl
  | cons word more inductionHypothesis =>
      rw [valuesOfWords, List.map_cons, mapM_word?_cons, word?_valueOfNatural, Option.bind_some,
        ← valuesOfWords, inductionHypothesis, Option.map_some]

theorem wordsOf?_valuesOfWords {count : Nat} (words : Vector Word count) :
    (Value.list (valuesOfWords words.toList)).wordsOf? count = some words := by
  obtain ⟨⟨words⟩, rfl⟩ := words
  rw [Value.wordsOf?, words?_valuesOfWords]
  exact dif_pos rfl

/-! ## Records -/

/-- The text of a member whose key stands as it is. -/
inductive WritesMember : String × Value → Bytes → Prop where
  | plain {key : String} {value : Value} {text : Bytes} (plain : key.toList.all isPlain = true)
      (isValue : Written (.value value) text) : WritesMember (key, value) (ofMember key text)

/-- Members with the text of their keys between quotes. -/
def labelled (members : List (String × Value)) : List (Bytes × Value) :=
  members.map fun member => (ascii member.1, member.2)

variable {first : Bool} {gap text rest : Bytes} {texts : List Bytes}
variable {member : String × Value} {members : List (String × Value)}

theorem written_member (writes : WritesMember member text) (isGap : Gap first gap)
    (goesOn : Written (.members false (labelled members)) rest) :
    Written (.members first (labelled (member :: members))) (gap ++ (text ++ rest)) := by
  cases writes with
  | plain plain isValue =>
      have isLabel := stringBody_of_spells (spells_letters plain)
      have written := Written.member isGap isLabel blanks_nil blanks_nil isValue goesOn
      simp only [ofMember, List.cons_append, List.append_assoc]
      exact written

/-- Members that follow others, each with a comma before it. -/
def ofFollowing (texts : List Bytes) : Bytes := texts.flatMap (comma :: ·)

theorem intercalate_comma (text : Bytes) (texts : List Bytes) :
    [comma].intercalate (text :: texts) = text ++ ofFollowing texts := by
  induction texts generalizing text with
  | nil => rfl
  | cons other more inductionHypothesis =>
      calc
        [comma].intercalate (text :: other :: more)
            = text ++ comma :: [comma].intercalate (other :: more) := rfl
        _ = text ++ comma :: (other ++ ofFollowing more) := by rw [inductionHypothesis]

theorem written_ofFollowing (writes : List.Forall₂ WritesMember members texts) :
    Written (.members false (labelled members)) (ofFollowing texts ++ [closeBrace]) := by
  induction writes with
  | nil => exact .noMembers blanks_nil
  | cons writes _ inductionHypothesis =>
      have gap : Gap false [comma] := .later blanks_nil blanks_nil
      have written := written_member writes gap inductionHypothesis
      rw [ofFollowing, List.flatMap_cons, List.append_assoc]
      exact written

theorem written_intercalate (writes : List.Forall₂ WritesMember members texts) :
    Written (.members true (labelled members)) ([comma].intercalate texts ++ [closeBrace]) := by
  cases writes with
  | nil => exact .noMembers blanks_nil
  | cons writes more =>
      have gap : Gap true [] := .first blanks_nil
      have written := written_member writes gap (written_ofFollowing more)
      rw [intercalate_comma, List.append_assoc]
      exact written

theorem spellsMember_labelled (writes : List.Forall₂ WritesMember members texts) :
    List.Forall₂ SpellsMember (labelled members) members := by
  induction writes with
  | nil => exact .nil
  | cons writes _ inductionHypothesis =>
      cases writes with
      | plain plain isValue => exact .cons ⟨spells_letters plain, rfl⟩ inductionHypothesis

/-- Written members make up a record. -/
theorem recordDocument_of_writes (writes : List.Forall₂ WritesMember members texts) :
    RecordDocument members (openBrace :: ([comma].intercalate texts ++ [closeBrace])) := by
  have document := Document.value blanks_nil (.record (written_intercalate writes)) blanks_nil
  rw [List.nil_append, List.append_nil] at document
  exact ⟨labelled members, spellsMember_labelled writes, document⟩

end RegisterMachine.Snapshot
