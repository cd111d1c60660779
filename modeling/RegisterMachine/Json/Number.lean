import RegisterMachine.Json.Failure
import RegisterMachine.Json.Mark

/-!
Contract: JSON numbers.

A number is scanned by its grammar alone and valued in a second step. Without
fraction and exponent, a number from -2^63 to 2^64 - 1 is an integer; every
other one, also minus zero, is a floating point number. A floating point number
too large for binary64 is refused when it is valued.

Owns: the parts of a number, scanning, valuing.
Does not own: the ranges that a reader demands (`Json.Value`).
-/

namespace RegisterMachine.Json

/-- The digits of a number, most significant first, with its sign and its exponent. -/
structure NumberParts where
  negative : Bool
  whole : List Nat
  fraction : Option (List Nat)
  /-- The sign and the digits of the exponent. -/
  exponent : Option (Bool × List Nat)
deriving DecidableEq, Repr

/-- The value of a number, as far as a reader of integers needs it. -/
inductive Number where
  | natural (value : Nat)
  /-- Minus this positive number. -/
  | negative (magnitude : Nat)
  | floating
deriving DecidableEq, Repr

namespace NumberParts

open Mark

/-! ## Scanning -/

/-- The digits at the start of a text, and the rest. -/
def scanDigits (text : Bytes) : List Nat × Bytes :=
  ((text.takeWhile isDigit).map digitValue, text.dropWhile isDigit)

/-- At least one digit; `cut` is the failure of a text that ends before it. -/
def scanSomeDigits (cut : Failure) (text : Bytes) : Except Failure (List Nat × Bytes) :=
  match text with
  | [] => .error cut
  | first :: _ => if isDigit first then .ok (scanDigits text) else .error .illFormed

/-- The digits before the point; zero stands alone. -/
def scanWhole (cut : Failure) (text : Bytes) : Except Failure (List Nat × Bytes) :=
  match text with
  | [] => .error cut
  | first :: rest =>
      if first = zero then
        match rest with
        | second :: _ => if isDigit second then .error .illFormed else .ok ([0], rest)
        | [] => .ok ([0], [])
      else
        scanSomeDigits cut text

/-- The digits after a point, if there is one. -/
def scanFraction (cut : Failure) (text : Bytes) : Except Failure (Option (List Nat) × Bytes) :=
  match text with
  | [] => .ok (none, [])
  | first :: rest =>
      if first = point then
        (scanSomeDigits cut rest).map fun (digits, rest) => (some digits, rest)
      else
        .ok (none, text)

/-- The sign of an exponent, which is negative only after a minus. -/
def scanSign (text : Bytes) : Bool × Bytes :=
  match text with
  | [] => (false, [])
  | first :: rest =>
      if first = minus then (true, rest) else if first = plus then (false, rest)
      else (false, text)

/-- The exponent, if there is one. -/
def scanExponent (cut : Failure) (text : Bytes) :
    Except Failure (Option (Bool × List Nat) × Bytes) :=
  match text with
  | [] => .ok (none, [])
  | first :: rest =>
      if first = letter 'e' ∨ first = letter 'E' then
        let (negative, rest) := scanSign rest
        (scanSomeDigits cut rest).map fun (digits, rest) => (some (negative, digits), rest)
      else
        .ok (none, text)

/-- The number at the start of a text; `cut` is the failure of a text that ends inside it. -/
def scan (cut : Failure) (text : Bytes) : Except Failure (NumberParts × Bytes) :=
  let (negative, unsigned) : Bool × Bytes :=
    match text with
    | [] => (false, [])
    | first :: rest => if first = minus then (true, rest) else (false, text)
  match scanWhole cut unsigned with
  | .error failure => .error failure
  | .ok (whole, afterWhole) =>
      match scanFraction cut afterWhole with
      | .error failure => .error failure
      | .ok (fraction, afterFraction) =>
          match scanExponent cut afterFraction with
          | .error failure => .error failure
          | .ok (exponent, rest) => .ok (⟨negative, whole, fraction, exponent⟩, rest)

theorem length_of_scanSomeDigits {cut : Failure} {text rest : Bytes} {digits : List Nat}
    (scanned : scanSomeDigits cut text = .ok (digits, rest)) : rest.length < text.length := by
  unfold scanSomeDigits at scanned
  split at scanned
  · contradiction
  · next first tail =>
      split at scanned
      · next isDigitFirst =>
          simp only [Except.ok.injEq, scanDigits, Prod.mk.injEq] at scanned
          rw [← scanned.2, List.dropWhile_cons_of_pos isDigitFirst]
          exact Nat.lt_succ_of_le (List.dropWhile_suffix _).length_le
      · contradiction

theorem length_of_scanWhole {cut : Failure} {text rest : Bytes} {digits : List Nat}
    (scanned : scanWhole cut text = .ok (digits, rest)) : rest.length < text.length := by
  unfold scanWhole at scanned
  split at scanned
  · contradiction
  · split at scanned
    · split at scanned
      · split at scanned
        · contradiction
        · cases scanned
          exact Nat.lt_succ_self _
      · cases scanned
        exact Nat.lt_succ_self _
    · exact length_of_scanSomeDigits scanned

theorem length_of_scanFraction {cut : Failure} {text rest : Bytes} {digits : Option (List Nat)}
    (scanned : scanFraction cut text = .ok (digits, rest)) : rest.length ≤ text.length := by
  unfold scanFraction at scanned
  split at scanned
  · cases scanned
    exact Nat.le_refl _
  · next first tail =>
      split at scanned
      · cases found : scanSomeDigits cut tail with
        | error failure =>
            rw [found] at scanned
            contradiction
        | ok pair =>
            obtain ⟨some, after⟩ := pair
            rw [found] at scanned
            cases scanned
            exact Nat.le_of_lt (Nat.lt_succ_of_lt (length_of_scanSomeDigits found))
      · cases scanned
        exact Nat.le_refl _

theorem length_scanSign_le (text : Bytes) : (scanSign text).2.length ≤ text.length := by
  unfold scanSign
  split
  · exact Nat.le_refl _
  · split
    · exact Nat.le_succ _
    · split
      · exact Nat.le_succ _
      · exact Nat.le_refl _

theorem length_of_scanExponent {cut : Failure} {text rest : Bytes}
    {exponent : Option (Bool × List Nat)}
    (scanned : scanExponent cut text = .ok (exponent, rest)) : rest.length ≤ text.length := by
  unfold scanExponent at scanned
  split at scanned
  · cases scanned
    exact Nat.le_refl _
  · next first tail =>
      split at scanned
      · have signLe := length_scanSign_le tail
        simp only at scanned
        cases found : scanSomeDigits cut (scanSign tail).2 with
        | error failure =>
            rw [found] at scanned
            contradiction
        | ok pair =>
            obtain ⟨some, after⟩ := pair
            rw [found] at scanned
            cases scanned
            have shorter := length_of_scanSomeDigits found
            simp only [List.length_cons]
            omega
      · cases scanned
        exact Nat.le_refl _

theorem length_of_scan {cut : Failure} {text rest : Bytes} {parts : NumberParts}
    (scanned : scan cut text = .ok (parts, rest)) : rest.length < text.length := by
  unfold scan at scanned
  split at scanned
  next negative unsigned unsignedEq =>
  have unsignedLe : unsigned.length ≤ text.length := by
    split at unsignedEq
    · cases unsignedEq
      exact Nat.le_refl _
    · split at unsignedEq
      · cases unsignedEq
        exact Nat.le_succ _
      · cases unsignedEq
        exact Nat.le_refl _
  split at scanned
  · contradiction
  · next whole =>
      split at scanned
      · contradiction
      · next fraction =>
          split at scanned
          · contradiction
          · next exponent =>
              cases scanned
              have wholeLt := length_of_scanWhole whole
              have fractionLe := length_of_scanFraction fraction
              have exponentLe := length_of_scanExponent exponent
              omega

/-! ## Valuing -/

/-- The number that decimal digits write. -/
def ofDigits (digits : List Nat) : Nat := digits.foldl (fun value digit => 10 * value + digit) 0

/-- Appends digits to a significand for as long as it stays below 2^64, and counts them. -/
def absorb (significand : Nat) : List Nat → Nat × Nat
  | [] => (significand, 0)
  | digit :: rest =>
      if 10 * significand + digit < 0x10000000000000000 then
        let (value, count) := absorb (10 * significand + digit) rest
        (value, count + 1)
      else
        (significand, 0)

/-- The significand of at most 64 bits and the power of ten that approximate the magnitude. -/
def decimal (parts : NumberParts) : Nat × Int :=
  let (whole, wholeCount) := absorb 0 parts.whole
  let (significand, fractionCount) := absorb whole (parts.fraction.getD [])
  let written : Int :=
    match parts.exponent with
    | none => 0
    | some (true, digits) => - (ofDigits digits : Int)
    | some (false, digits) => ofDigits digits
  (significand, (parts.whole.length - wholeCount : Nat) - (fractionCount : Int) + written)

/-- The nearest number with 53 significant bits; a tie goes to the even neighbour. -/
def roundTo53Bits (value : Nat) : Nat :=
  let unit := 1 <<< (value.log2 - 52)
  let quotient := value / unit
  let twiceRest := 2 * (value % unit)
  if twiceRest < unit ∨ (twiceRest = unit ∧ quotient % 2 = 0) then quotient * unit
  else (quotient + 1) * unit

/-- The significand times the power of ten, both rounded to binary64, exceeds every finite
binary64 number. -/
def overflows (significand : Nat) (exponent : Int) : Bool :=
  if significand = 0 ∨ exponent < 0 then false
  else if 308 < exponent then true
  else
    (1 <<< 1024) - (1 <<< 970) ≤
      roundTo53Bits significand * roundTo53Bits (Nat.pow 10 exponent.toNat)

/-- The value as a floating point number, which must not overflow. -/
def floatingValue (parts : NumberParts) : Except Failure Number :=
  let (significand, exponent) := parts.decimal
  if overflows significand exponent then .error .illFormed else .ok .floating

def value (parts : NumberParts) : Except Failure Number :=
  if parts.fraction.isNone && parts.exponent.isNone then
    if parts.negative then
      if 0 < ofDigits parts.whole ∧ ofDigits parts.whole ≤ 0x8000000000000000 then
        .ok (.negative (ofDigits parts.whole))
      else
        parts.floatingValue
    else if ofDigits parts.whole < 0x10000000000000000 then
      .ok (.natural (ofDigits parts.whole))
    else
      parts.floatingValue
  else
    parts.floatingValue

end NumberParts

/-- Reads the number at the start of a text. -/
def readNumber (text : Bytes) : Except Failure (Number × Bytes) :=
  match NumberParts.scan .cutOff text with
  | .error failure => .error failure
  | .ok (parts, rest) => parts.value.map fun number => (number, rest)

theorem length_of_readNumber {text rest : Bytes} {number : Number}
    (read : readNumber text = .ok (number, rest)) : rest.length < text.length := by
  unfold readNumber at read
  split at read
  · contradiction
  · next parts after scanned =>
      cases valued : parts.value with
      | error failure =>
          rw [valued] at read
          contradiction
      | ok found =>
          rw [valued] at read
          cases read
          exact NumberParts.length_of_scan scanned

def Number.found : Number → Found
  | .natural value => .integer value
  | .negative magnitude => .integer (- (magnitude : Int))
  | .floating => .floating

end RegisterMachine.Json
