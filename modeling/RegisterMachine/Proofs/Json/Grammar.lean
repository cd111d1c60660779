import Mathlib.Data.List.Forall2
import RegisterMachine.Json.Number
import RegisterMachine.Json.Quoted

/-!
Contract: which texts are JSON, and what they say.

The grammar is stated as a relation between a value and its texts, so one value
has many texts: blanks may stand before and after every token, a key may be
written with escapes, an exponent with either letter. Nothing here refers to
the readers.

Owns: `Value`, the texts of numbers, strings, values and whole documents.
Does not own: what a reader makes of a text (`Proofs.Json.Tokens`,
`Proofs.Json.Recognition`).
-/

namespace RegisterMachine.Json

open Mark

/-- A JSON value without its layout. Strings and the keys of records are kept as they stand between
their quotes, since nothing but their syntax matters to a reader that skips them. -/
inductive Value where
  | null
  | boolean (value : Bool)
  | number (parts : NumberParts)
  | string (body : Bytes)
  | list (elements : List Value)
  | record (members : List (Bytes × Value))

def Blanks (text : Bytes) : Prop := ∀ byte ∈ text, isBlank byte = true

/-! ## Numbers -/

/-- At least one decimal digit. -/
structure DigitsText (digits : List Nat) (text : Bytes) : Prop where
  nonempty : text ≠ []
  onlyDigits : ∀ byte ∈ text, isDigit byte = true
  values : digits = text.map digitValue

inductive SignText : (negative : Bool) → Bytes → Prop where
  | absent : SignText false []
  | minus : SignText true [minus]

/-- The digits before the point, where no zero stands before another digit. -/
inductive WholeText : List Nat → Bytes → Prop where
  | zero : WholeText [0] [zero]
  | digits {digits : List Nat} {text : Bytes} (written : DigitsText digits text)
      (noZero : text.head? ≠ some zero) : WholeText digits text

inductive FractionText : Option (List Nat) → Bytes → Prop where
  | absent : FractionText none []
  | digits {digits : List Nat} {text : Bytes} (written : DigitsText digits text) :
      FractionText (some digits) (point :: text)

inductive ExponentSign : (negative : Bool) → Bytes → Prop where
  | absent : ExponentSign false []
  | plus : ExponentSign false [plus]
  | minus : ExponentSign true [minus]

inductive ExponentText : Option (Bool × List Nat) → Bytes → Prop where
  | absent : ExponentText none []
  | digits {mark : UInt8} {negative : Bool} {sign text : Bytes} {digits : List Nat}
      (isMark : mark = letter 'e' ∨ mark = letter 'E') (signed : ExponentSign negative sign)
      (written : DigitsText digits text) :
      ExponentText (some (negative, digits)) (mark :: (sign ++ text))

inductive NumberText : NumberParts → Bytes → Prop where
  | parts {negative : Bool} {whole : List Nat} {fraction : Option (List Nat)}
      {exponent : Option (Bool × List Nat)} {sign wholeText fractionText exponentText : Bytes}
      (signed : SignText negative sign) (isWhole : WholeText whole wholeText)
      (isFraction : FractionText fraction fractionText)
      (isExponent : ExponentText exponent exponentText) :
      NumberText ⟨negative, whole, fraction, exponent⟩
        (sign ++ (wholeText ++ (fractionText ++ exponentText)))

/-! ## Strings -/

/-- Four hexadecimal digits. -/
inductive HexText : Nat → Bytes → Prop where
  | digits {first second third fourth : UInt8} {a b c d : Nat} (isFirst : hexValue? first = some a)
      (isSecond : hexValue? second = some b) (isThird : hexValue? third = some c)
      (isFourth : hexValue? fourth = some d) :
      HexText (4096 * a + 256 * b + 16 * c + d) [first, second, third, fourth]

/-- A byte above the control characters that ends no string and begins no escape. -/
structure IsVisible (byte : UInt8) : Prop where
  noControl : ¬ byte < 0x20
  notQuote : byte ≠ quote
  notBackslash : byte ≠ backslash

/-- What may stand between quotes, whether or not the escapes and bytes make up characters. -/
inductive StringBody : Bytes → Prop where
  | done : StringBody []
  | visible {byte : UInt8} {more : Bytes} (isVisible : IsVisible byte) (goesOn : StringBody more) :
      StringBody (byte :: more)
  | short {byte meant : UInt8} {more : Bytes} (known : shortEscape? byte = some meant)
      (goesOn : StringBody more) : StringBody (backslash :: byte :: more)
  | code {value : Nat} {digits more : Bytes} (hex : HexText value digits)
      (goesOn : StringBody more) : StringBody (backslash :: letter 'u' :: (digits ++ more))

/-- One character as it may stand in a key. A character outside the basic plane is escaped as two
surrogates. -/
inductive SpellsCharacter : Char → Bytes → Prop where
  | plain {character : Char} (noControl : 0x20 ≤ character.toNat) (notQuote : character ≠ '"')
      (notBackslash : character ≠ '\\') :
      SpellsCharacter character (String.utf8EncodeChar character)
  | short {character : Char} {byte meant : UInt8} (known : shortEscape? byte = some meant)
      (means : character.toNat = meant.toNat) : SpellsCharacter character [backslash, byte]
  | code {character : Char} {digits : Bytes} (hex : HexText character.toNat digits) :
      SpellsCharacter character (backslash :: letter 'u' :: digits)
  | surrogates {character : Char} {leading trailing : Nat} {first second : Bytes}
      (isFirst : HexText leading first) (isSecond : HexText trailing second)
      (leadingRange : 0xd800 ≤ leading ∧ leading ≤ 0xdbff)
      (trailingRange : 0xdc00 ≤ trailing ∧ trailing ≤ 0xdfff)
      (joined : character.toNat = 0x10000 + 0x400 * (leading - 0xd800) + (trailing - 0xdc00)) :
      SpellsCharacter character
        (backslash :: letter 'u' :: (first ++ backslash :: letter 'u' :: second))

/-- A key as it may stand between quotes. -/
inductive Spells : List Char → Bytes → Prop where
  | done : Spells [] []
  | character {character : Char} {characters : List Char} {text more : Bytes}
      (spelled : SpellsCharacter character text) (goesOn : Spells characters more) :
      Spells (character :: characters) (text ++ more)

/-! ## Values -/

inductive ScalarText : Value → Bytes → Prop where
  | null : ScalarText .null (ascii "null")
  | true : ScalarText (.boolean true) (ascii "true")
  | false : ScalarText (.boolean false) (ascii "false")
  | number {parts : NumberParts} {text : Bytes} (written : NumberText parts text) :
      ScalarText (.number parts) text
  | string {body : Bytes} (written : StringBody body) :
      ScalarText (.string body) (quote :: (body ++ [quote]))

/-- What stands before an entry of a list or record: blanks, and a comma unless it is the first. -/
inductive Gap : (first : Bool) → Bytes → Prop where
  | first {blanks : Bytes} (areBlanks : Blanks blanks) : Gap true blanks
  | later {before after : Bytes} (blanksBefore : Blanks before) (blanksAfter : Blanks after) :
      Gap false (before ++ comma :: after)

/-- A part of a text: one value, or what remains of a list or record, with the mark that closes
it. -/
inductive Piece where
  | value (value : Value)
  | elements (first : Bool) (elements : List Value)
  | members (first : Bool) (members : List (Bytes × Value))

/-- The texts of a piece. That of a value has no blanks around it. -/
inductive Written : Piece → Bytes → Prop where
  | scalar {value : Value} {text : Bytes} (written : ScalarText value text) :
      Written (.value value) text
  | list {elements : List Value} {text : Bytes} (inside : Written (.elements true elements) text) :
      Written (.value (.list elements)) (openBracket :: text)
  | record {members : List (Bytes × Value)} {text : Bytes}
      (inside : Written (.members true members) text) :
      Written (.value (.record members)) (openBrace :: text)
  | noElements {first : Bool} {blanks : Bytes} (areBlanks : Blanks blanks) :
      Written (.elements first []) (blanks ++ [closeBracket])
  | element {first : Bool} {value : Value} {more : List Value} {gap text rest : Bytes}
      (isGap : Gap first gap) (isValue : Written (.value value) text)
      (goesOn : Written (.elements false more) rest) :
      Written (.elements first (value :: more)) (gap ++ (text ++ rest))
  | noMembers {first : Bool} {blanks : Bytes} (areBlanks : Blanks blanks) :
      Written (.members first []) (blanks ++ [closeBrace])
  | member {first : Bool} {label : Bytes} {value : Value} {more : List (Bytes × Value)}
      {gap before after text rest : Bytes} (isGap : Gap first gap) (isLabel : StringBody label)
      (blanksBefore : Blanks before) (blanksAfter : Blanks after)
      (isValue : Written (.value value) text) (goesOn : Written (.members false more) rest) :
      Written (.members first ((label, value) :: more))
        (gap ++ quote :: (label ++ quote :: (before ++ colon :: (after ++ (text ++ rest)))))

/-- A whole text is one value with blanks around it. -/
inductive Document : Value → Bytes → Prop where
  | value {value : Value} {before text after : Bytes} (blanksBefore : Blanks before)
      (isValue : Written (.value value) text) (blanksAfter : Blanks after) :
      Document value (before ++ (text ++ after))

/-- A member whose key is given without its escapes. -/
def SpellsMember (labelled : Bytes × Value) (member : String × Value) : Prop :=
  Spells member.1.toList labelled.1 ∧ labelled.2 = member.2

/-- A whole text that is a record of these members. -/
def RecordDocument (members : List (String × Value)) (text : Bytes) : Prop :=
  ∃ labelled, List.Forall₂ SpellsMember labelled members ∧ Document (.record labelled) text

/-! ## Ends of values -/

/-- The byte can stand after a value. -/
def isEnd (byte : UInt8) : Bool :=
  isBlank byte || byte == comma || byte == closeBracket || byte == closeBrace

/-- Nothing that is left can belong to the value before it. -/
def Ends (rest : Bytes) : Prop := ∀ byte ∈ rest.head?, isEnd byte = true

theorem ends_cons {byte : UInt8} {rest : Bytes} (ends : isEnd byte = true) :
    Ends (byte :: rest) := by
  intro first isFirst
  cases isFirst
  exact ends

theorem ends_append {blanks rest : Bytes} (areBlanks : Blanks blanks) (ends : Ends rest) :
    Ends (blanks ++ rest) := by
  cases blanks with
  | nil => exact ends
  | cons byte more =>
      apply ends_cons
      rw [isEnd, areBlanks byte List.mem_cons_self]
      rfl

/-- After the value of an entry follows a comma or the closing mark. -/
theorem ends_elements {elements : List Value} {text : Bytes}
    (written : Written (.elements false elements) text) (rest : Bytes) : Ends (text ++ rest) := by
  cases written with
  | noElements areBlanks =>
      rw [List.append_assoc]
      exact ends_append areBlanks (ends_cons rfl)
  | element isGap _ _ =>
      cases isGap with
      | later blanksBefore _ =>
          rw [List.append_assoc, List.append_assoc]
          exact ends_append blanksBefore (ends_cons rfl)

theorem ends_members {members : List (Bytes × Value)} {text : Bytes}
    (written : Written (.members false members) text) (rest : Bytes) : Ends (text ++ rest) := by
  cases written with
  | noMembers areBlanks =>
      rw [List.append_assoc]
      exact ends_append areBlanks (ends_cons rfl)
  | member isGap _ _ _ _ _ =>
      cases isGap with
      | later blanksBefore _ =>
          rw [List.append_assoc, List.append_assoc]
          exact ends_append blanksBefore (ends_cons rfl)

end RegisterMachine.Json
