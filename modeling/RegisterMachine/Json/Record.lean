import RegisterMachine.Json.Value

/-!
Contract: reading the members of a record in whatever order they stand.

What has been read so far is gathered in a value. For each member its key
decides how the text after the key changes that value; a gatherer reads some
members and skips the others.

Owns: keys, members, `Gatherer` and the walk over a record.
Does not own: which members there are (`Snapshot.Reader`).
-/

namespace RegisterMachine.Json

open Mark

/-- Reads the key of a member. -/
def readKey : Reader String := fun text =>
  match text with
  | [] => .error .cutOff
  | first :: rest => if first = quote then readString rest else .error .illFormed

/-- Reads what stands after a key. -/
def readMember {A : Type} (reader : Reader A) : Reader A := fun text =>
  match expectColon text with
  | .error failure => .error failure
  | .ok value => reader value

/-- Skips what stands after a key. -/
def skipMember (text : Bytes) : Except Failure Bytes :=
  match expectColon text with
  | .error failure => .error failure
  | .ok value => skipValue value

/-- Reads what stands after a key that must not have been met before. -/
def readOnce {A : Type} (key : String) (met : Bool) (reader : Reader A) : Reader A := fun text =>
  if met then .error (.unfit (.duplicateMember key)) else readMember reader text

theorem advances_readKey : readKey.Advances := by
  intro text rest key read
  unfold readKey at read
  split at read
  · contradiction
  · split at read
    · exact Nat.lt_succ_of_lt (length_of_readString read)
    · contradiction

theorem advances_readMember {A : Type} {reader : Reader A} (advances : reader.Advances) :
    (readMember reader).Advances := by
  intro text rest value read
  unfold readMember at read
  split at read
  · contradiction
  · next colon => exact Nat.lt_trans (advances read) (length_of_expectColon colon)

theorem advances_readOnce {A : Type} {key : String} {met : Bool} {reader : Reader A}
    (advances : reader.Advances) : (readOnce key met reader).Advances := by
  intro text rest value read
  unfold readOnce at read
  split at read
  · contradiction
  · exact advances_readMember advances read

theorem length_of_skipMember {text rest : Bytes} (skipped : skipMember text = .ok rest) :
    rest.length < text.length := by
  unfold skipMember at skipped
  split at skipped
  · contradiction
  · next colon =>
      exact Nat.lt_of_le_of_lt (length_of_skipValue skipped) (length_of_expectColon colon)

/-- How the members of a record are gathered: what has been gathered and the key of a member tell
how the text after the key is read. -/
structure Gatherer (A : Type) where
  gather : (gathered : A) → (key : String) → Reader A
  advances : ∀ (gathered : A) (key : String), (gather gathered key).Advances

/-- Gathers the members that remain of a record. -/
def readMembers {A : Type} (gatherer : Gatherer A) (gathered : A) (first : Bool) (text : Bytes) :
    Except Failure (A × Bytes) :=
  match _found : next .record first text with
  | .error failure => .error failure
  | .ok (.finish rest) => .ok (gathered, rest)
  | .ok (.entry inside) =>
      match _key : readKey inside with
      | .error failure => .error failure
      | .ok (key, label) =>
          match _value : gatherer.gather gathered key label with
          | .error failure => .error failure
          | .ok (gathered, rest) => readMembers gatherer gathered false rest
termination_by text.length
decreasing_by
  have insideLe := length_of_next_entry _found
  have keyLt := advances_readKey _key
  have valueLt := gatherer.advances _ _ _value
  omega

/-- Demands that only blanks are left. -/
def expectEnd (text : Bytes) : Except Failure Unit :=
  match skipBlanks text with
  | [] => .ok ()
  | _ :: _ => .error .illFormed

end RegisterMachine.Json
