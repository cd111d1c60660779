import Mathlib.Data.Finset.Card
import Mathlib.Data.List.Sort
import RegisterMachine.Breakpoints

/-!
Contract: breakpoints are a set, listed in ascending order.

The reference is a finite set of addresses, without any order. A set of
breakpoints that is collected from a list and then edited has the members of the
reference that the same edits are made to. Its members determine the list that
it keeps, so how they came about leaves no trace in it.

Owns: `Breakpoints.Edit`, its reference, `Breakpoints.Lists`.
Does not own: where breakpoints stop a run (`Proofs.FirstHit`).
-/

namespace RegisterMachine.Breakpoints

/-- A change to a set of breakpoints. -/
inductive Edit where
  | add (address : Nat)
  | remove (address : Nat)
  | clear
deriving DecidableEq, Repr

def edit (set : Breakpoints) : Edit → Breakpoints
  | .add address => (set.add address).2
  | .remove address => (set.remove address).2
  | .clear => set.clear

def editAll (set : Breakpoints) (edits : List Edit) : Breakpoints := edits.foldl edit set

/-! ## The reference -/

/-- The members without their order. -/
def members (set : Breakpoints) : Finset Nat := set.addresses.toFinset

/-- What an edit makes of the members. -/
def Edit.onMembers (members : Finset Nat) : Edit → Finset Nat
  | .add address => insert address members
  | .remove address => members.erase address
  | .clear => ∅

/-- The members of what is collected from a list and then edited. -/
def membersAfter (addresses : List Nat) (edits : List Edit) : Finset Nat :=
  edits.foldl Edit.onMembers addresses.toFinset

/-- The set has these members and tells so in every answer. -/
structure Lists (set : Breakpoints) (members : Finset Nat) : Prop where
  contains : ∀ address, set.contains address = true ↔ address ∈ members
  /-- The addresses are the one list of the members that ascends without repetition. -/
  addresses : ∀ list, set.addresses = list ↔
    list.Pairwise (· < ·) ∧ ∀ address, address ∈ list ↔ address ∈ members
  size : set.size = members.card
  isEmpty : set.isEmpty = true ↔ members.card = 0
  absent : ∀ address, (set.add address).1 = true ↔ address ∉ members
  present : ∀ address, (set.remove address).1 = true ↔ address ∈ members

/-! ## Sets and their members -/

variable {set left right : Breakpoints} {address other : Nat}

theorem mem_members : address ∈ set.members ↔ address ∈ set := List.mem_toFinset

theorem nodup_addresses (set : Breakpoints) : set.addresses.Nodup :=
  set.ascending.imp Nat.ne_of_lt

theorem contains_iff : set.contains address = true ↔ address ∈ set := decide_eq_true_iff

/-- There is one way to list members in ascending order. -/
theorem addresses_eq_iff {list : List Nat} :
    set.addresses = list ↔
      list.Pairwise (· < ·) ∧ ∀ address, address ∈ list ↔ address ∈ set.members := by
  constructor
  · rintro rfl
    exact ⟨set.ascending, fun _ => mem_members.symm⟩
  · rintro ⟨ascending, lists⟩
    apply set.ascending.eq_of_mem_iff ascending
    intro address
    rw [lists, mem_members, mem_def]

/-- Sets with the same members are equal. -/
theorem members_inj : left.members = right.members ↔ left = right := by
  constructor
  · intro same
    have addresses : left.addresses = right.addresses := by
      rw [addresses_eq_iff, same]
      exact addresses_eq_iff.mp rfl
    obtain ⟨_, _⟩ := left
    obtain ⟨_, _⟩ := right
    cases addresses
    rfl
  · rintro rfl
    rfl

theorem lists_members (set : Breakpoints) : set.Lists set.members where
  contains address := by rw [contains_iff, mem_members]
  addresses list := addresses_eq_iff
  size := (List.toFinset_card_of_nodup set.nodup_addresses).symm
  isEmpty := by
    rw [isEmpty, List.isEmpty_iff, Finset.card_eq_zero, members, List.toFinset_eq_empty_iff]
  absent address := by rw [add, Bool.not_eq_true', ← Bool.not_eq_true, contains_iff, mem_members]
  present address := by rw [remove, contains_iff, mem_members]

/-! ## Edits -/

theorem mem_remove_iff : other ∈ (set.remove address).2 ↔ other ≠ address ∧ other ∈ set := by
  rw [mem_def, remove, List.mem_filter, decide_eq_true_iff, and_comm, mem_def]

theorem members_edit (set : Breakpoints) (edit : Edit) :
    (set.edit edit).members = edit.onMembers set.members := by
  ext other
  cases edit with
  | add address =>
      rw [mem_members, Edit.onMembers, Finset.mem_insert, mem_members]
      exact mem_add_iff
  | remove address =>
      rw [mem_members, Edit.onMembers, Finset.mem_erase, mem_members]
      exact mem_remove_iff
  | clear => rfl

theorem members_editAll (set : Breakpoints) (edits : List Edit) :
    (set.editAll edits).members = edits.foldl Edit.onMembers set.members := by
  induction edits generalizing set with
  | nil => rfl
  | cons edit later inductionHypothesis =>
      rw [editAll, List.foldl_cons, List.foldl_cons, ← members_edit]
      exact inductionHypothesis (set.edit edit)

theorem members_ofList (addresses : List Nat) : (ofList addresses).members = addresses.toFinset := by
  ext address
  rw [mem_members, mem_ofList_iff, List.mem_toFinset]

/-- What has been collected and edited lists the members of its reference, whatever the order of
the list it was collected from and of the edits, and equals every other set with these members. -/
theorem collected_and_edited_lists_reference (addresses : List Nat) (edits : List Edit) :
    ((ofList addresses).editAll edits).Lists (membersAfter addresses edits) ∧
      ∀ otherAddresses otherEdits,
        (ofList addresses).editAll edits = (ofList otherAddresses).editAll otherEdits ↔
          membersAfter addresses edits = membersAfter otherAddresses otherEdits := by
  have reference (addresses : List Nat) (edits : List Edit) :
      ((ofList addresses).editAll edits).members = membersAfter addresses edits := by
    rw [members_editAll, members_ofList, membersAfter]
  constructor
  · rw [← reference]
    exact lists_members _
  · intro otherAddresses otherEdits
    rw [← reference, ← reference, members_inj]

/-- Two ways to the same set. -/
example :
    ((ofList [9, 4, 9, 1]).editAll [.remove 4, .add 3]).addresses = [1, 3, 9] ∧
      ((ofList [4]).editAll [.clear, .add 9, .add 3, .add 1]).addresses = [1, 3, 9] := by
  decide

end RegisterMachine.Breakpoints
