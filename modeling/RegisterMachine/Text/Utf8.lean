import RegisterMachine.Word

/-!
Contract: text as bytes.

Owns: the UTF-8 form of a text, and the text that bytes are the form of.
Does not own: the form of a text in memory (`Text.CodeUnits`).
-/

namespace RegisterMachine.Text

/-- The UTF-8 form of a text. -/
def encode (text : String) : Bytes := text.toList.flatMap String.utf8EncodeChar

/-- The text that has this UTF-8 form. -/
def decode? (content : Bytes) : Option String := String.fromUTF8? ⟨content.toArray⟩

theorem toArray_encode (text : String) : ⟨(encode text).toArray⟩ = text.toByteArray := by
  have asList := congrArg String.toByteArray text.ofList_toList
  rw [String.toByteArray_ofList] at asList
  rw [← asList]
  exact ByteArray.ext List.data_toByteArray.symm

/-- A text is read back from its bytes. -/
theorem decode?_encode (text : String) : decode? (encode text) = some text := by
  rw [decode?, toArray_encode, String.fromUTF8?, dif_pos text.isValidUTF8]
  rfl

theorem encode_inj {first second : String} : encode first = encode second ↔ first = second := by
  constructor
  · intro same
    have decoded := congrArg decode? same
    rw [decode?_encode, decode?_encode] at decoded
    exact Option.some.inj decoded
  · rintro rfl
    rfl

@[simp] theorem encode_empty : encode "" = [] := by
  simp [encode]

@[simp] theorem encode_append (first second : String) :
    encode (first ++ second) = encode first ++ encode second := by
  simp [encode]

theorem encode_join (texts : List String) :
    encode (String.join texts) = texts.flatMap encode := by
  induction texts with
  | nil => simp
  | cons text rest inductionHypothesis => simp [String.join_cons, inductionHypothesis]

end RegisterMachine.Text
