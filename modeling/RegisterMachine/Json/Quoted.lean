import RegisterMachine.Json.Failure
import RegisterMachine.Json.Mark

/-!
Contract: JSON strings, read and skipped.

Both directions begin after the opening quote. A string that is read must be
UTF-8, and an escaped surrogate must be followed by its partner. A string that
is skipped need only be lexically right: its escapes are known and it holds no
control character.

Owns: escapes, `skipString`, `readString`.
Does not own: where a string may stand (`Json.Skip`, `Json.Value`).
-/

namespace RegisterMachine.Json

open Mark

/-- The value of four hexadecimal digits. -/
def readHex (text : Bytes) : Except Failure (Nat × Bytes) :=
  match text with
  | first :: second :: third :: fourth :: rest =>
      match hexValue? first, hexValue? second, hexValue? third, hexValue? fourth with
      | some a, some b, some c, some d => .ok (4096 * a + 256 * b + 16 * c + d, rest)
      | _, _, _, _ => .error .illFormed
  | _ => .error .cutOff

/-- The byte that a backslash and this letter stand for. -/
def shortEscape? (byte : UInt8) : Option UInt8 :=
  if byte = quote ∨ byte = backslash ∨ byte = letter '/' then some byte
  else if byte = letter 'b' then some 0x08
  else if byte = letter 'f' then some 0x0c
  else if byte = letter 'n' then some 0x0a
  else if byte = letter 'r' then some 0x0d
  else if byte = letter 't' then some 0x09
  else none

theorem length_of_readHex {text rest : Bytes} {value : Nat}
    (read : readHex text = .ok (value, rest)) : rest.length < text.length := by
  unfold readHex at read
  split at read
  · split at read
    · cases read
      simp only [List.length_cons]
      omega
    · contradiction
  · contradiction

/-! ## Skipping -/

/-- Skips what follows a backslash. -/
def skipEscape (text : Bytes) : Except Failure Bytes :=
  match text with
  | [] => .error .cutOff
  | first :: rest =>
      if (shortEscape? first).isSome then .ok rest
      else if first = letter 'u' then (readHex rest).map fun (_, rest) => rest
      else .error .illFormed

theorem length_of_skipEscape {text rest : Bytes} (skipped : skipEscape text = .ok rest) :
    rest.length < text.length := by
  unfold skipEscape at skipped
  split at skipped
  · contradiction
  · next first tail =>
      split at skipped
      · cases skipped
        exact Nat.lt_succ_self _
      · split at skipped
        · cases read : readHex tail with
          | error failure =>
              rw [read] at skipped
              contradiction
          | ok found =>
              obtain ⟨value, after⟩ := found
              rw [read] at skipped
              cases skipped
              exact Nat.lt_succ_of_lt (length_of_readHex read)
        · contradiction

/-- Skips a string and its closing quote. -/
def skipString (text : Bytes) : Except Failure Bytes :=
  match text with
  | [] => .error .cutOff
  | first :: rest =>
      if first = quote then .ok rest
      else if first = backslash then
        match _skipped : skipEscape rest with
        | .error failure => .error failure
        | .ok after => skipString after
      else if first < 0x20 then .error .illFormed
      else skipString rest
termination_by text.length
decreasing_by
  · have shorter := length_of_skipEscape _skipped
    simp only [List.length_cons]
    omega
  · simp only [List.length_cons]
    omega

/-! ## Reading -/

/-- The UTF-8 form of the character with this code, which must not be a surrogate. -/
def encodeCode (code : Nat) : Bytes := String.utf8EncodeChar (Char.ofNat code)

/-- The code of the character that a leading and a trailing surrogate stand for. -/
def joinSurrogates (leading trailing : Nat) : Nat :=
  0x10000 + 0x400 * (leading - 0xd800) + (trailing - 0xdc00)

/-- The second half of a pair of escaped surrogates. -/
def readTrailing (leading : Nat) (text : Bytes) : Except Failure (Bytes × Bytes) :=
  match text with
  | [] => .error .cutOff
  | first :: afterFirst =>
      if first = backslash then
        match afterFirst with
        | [] => .error .cutOff
        | second :: rest =>
            if second = letter 'u' then
              match readHex rest with
              | .error failure => .error failure
              | .ok (code, after) =>
                  if 0xdc00 ≤ code ∧ code ≤ 0xdfff then
                    .ok (encodeCode (joinSurrogates leading code), after)
                  else
                    .error .illFormed
            else
              .error .illFormed
      else
        .error .illFormed

/-- The bytes that an escaped code stands for. -/
def readCode (text : Bytes) : Except Failure (Bytes × Bytes) :=
  match readHex text with
  | .error failure => .error failure
  | .ok (code, rest) =>
      if 0xdc00 ≤ code ∧ code ≤ 0xdfff then .error .illFormed
      else if 0xd800 ≤ code ∧ code ≤ 0xdbff then readTrailing code rest
      else .ok (encodeCode code, rest)

/-- The bytes that a backslash and what follows it stand for. -/
def readEscape (text : Bytes) : Except Failure (Bytes × Bytes) :=
  match text with
  | [] => .error .cutOff
  | first :: rest =>
      match shortEscape? first with
      | some byte => .ok ([byte], rest)
      | none => if first = letter 'u' then readCode rest else .error .illFormed

theorem length_of_readTrailing {leading : Nat} {text bytes rest : Bytes}
    (read : readTrailing leading text = .ok (bytes, rest)) : rest.length < text.length := by
  unfold readTrailing at read
  split at read
  · contradiction
  · split at read
    · split at read
      · contradiction
      · split at read
        · split at read
          · contradiction
          · next hex =>
              split at read
              · simp only [Except.ok.injEq, Prod.mk.injEq] at read
                have shorter := length_of_readHex hex
                simp only [List.length_cons, ← read.2]
                omega
              · contradiction
        · contradiction
    · contradiction

theorem length_of_readCode {text bytes rest : Bytes}
    (read : readCode text = .ok (bytes, rest)) : rest.length < text.length := by
  unfold readCode at read
  split at read
  · contradiction
  · next hex =>
      have shorter := length_of_readHex hex
      split at read
      · contradiction
      · split at read
        · exact Nat.lt_trans (length_of_readTrailing read) shorter
        · cases read
          exact shorter

theorem length_of_readEscape {text bytes rest : Bytes}
    (read : readEscape text = .ok (bytes, rest)) : rest.length < text.length := by
  unfold readEscape at read
  split at read
  · contradiction
  · split at read
    · cases read
      exact Nat.lt_succ_self _
    · split at read
      · exact Nat.lt_succ_of_lt (length_of_readCode read)
      · contradiction

/-- Reads the bytes of a string up to its closing quote. -/
def readBytes (done : Array UInt8) (text : Bytes) : Except Failure (Array UInt8 × Bytes) :=
  match text with
  | [] => .error .cutOff
  | first :: rest =>
      if first = quote then .ok (done, rest)
      else if first = backslash then
        match _read : readEscape rest with
        | .error failure => .error failure
        | .ok (bytes, after) => readBytes (done ++ bytes) after
      else if first < 0x20 then .error .illFormed
      else readBytes (done.push first) rest
termination_by text.length
decreasing_by
  · have shorter := length_of_readEscape _read
    simp only [List.length_cons]
    omega
  · simp only [List.length_cons]
    omega

/-- Reads a string and its closing quote. -/
def readString (text : Bytes) : Except Failure (String × Bytes) :=
  match readBytes #[] text with
  | .error failure => .error failure
  | .ok (bytes, rest) =>
      match String.fromUTF8? ⟨bytes⟩ with
      | some string => .ok (string, rest)
      | none => .error .illFormed

theorem length_of_readBytes {done bytes : Array UInt8} {text rest : Bytes}
    (read : readBytes done text = .ok (bytes, rest)) : rest.length < text.length := by
  fun_induction readBytes done text
  case case2 =>
    cases read
    exact Nat.lt_succ_self _
  case case4 =>
    rename_i escaped _ inductionHypothesis
    have escapeLt := length_of_readEscape escaped
    have restLt := inductionHypothesis read
    simp only [List.length_cons]
    omega
  case case6 =>
    rename_i inductionHypothesis
    exact Nat.lt_succ_of_lt (inductionHypothesis read)
  all_goals contradiction

theorem length_of_readString {text rest : Bytes} {string : String}
    (read : readString text = .ok (string, rest)) : rest.length < text.length := by
  unfold readString at read
  split at read
  · contradiction
  · next found =>
      split at read
      · cases read
        exact length_of_readBytes found
      · contradiction

end RegisterMachine.Json
