/-!
Contract: the set of addresses at which a run pauses.

The addresses are kept in ascending order without repetition, so two sets with
the same members are equal.

Owns: `Breakpoints` and its operations.
Does not own: when a breakpoint is consulted (`Engine.cycle`).
-/

namespace RegisterMachine

structure Breakpoints where
  addresses : List Nat
  ascending : addresses.Pairwise (· < ·)
deriving DecidableEq, Repr

namespace Breakpoints

def empty : Breakpoints := ⟨[], List.Pairwise.nil⟩

instance : Inhabited Breakpoints := ⟨empty⟩

instance : Membership Nat Breakpoints := ⟨fun set address => address ∈ set.addresses⟩

theorem mem_def {set : Breakpoints} {address : Nat} :
    address ∈ set ↔ address ∈ set.addresses := Iff.rfl

instance (address : Nat) (set : Breakpoints) : Decidable (address ∈ set) :=
  inferInstanceAs (Decidable (address ∈ set.addresses))

def contains (set : Breakpoints) (address : Nat) : Bool := decide (address ∈ set)

def size (set : Breakpoints) : Nat := set.addresses.length

def isEmpty (set : Breakpoints) : Bool := set.addresses.isEmpty

/-! ## Adding and removing -/

/-- Puts an address at its place in an ascending list that lacks it. -/
def insertAscending (address : Nat) : List Nat → List Nat
  | [] => [address]
  | first :: rest =>
      if address < first then address :: first :: rest
      else if address = first then first :: rest
      else first :: insertAscending address rest

theorem mem_insertAscending {address other : Nat} {list : List Nat} :
    other ∈ insertAscending address list ↔ other = address ∨ other ∈ list := by
  induction list with
  | nil => simp [insertAscending]
  | cons first rest inductionHypothesis =>
      unfold insertAscending
      split
      · simp
      · split
        · next equal => simp [equal]
        · simp only [List.mem_cons, inductionHypothesis]
          constructor
          · rintro (isFirst | isAddress | inRest)
            · exact .inr (.inl isFirst)
            · exact .inl isAddress
            · exact .inr (.inr inRest)
          · rintro (isAddress | isFirst | inRest)
            · exact .inr (.inl isAddress)
            · exact .inl isFirst
            · exact .inr (.inr inRest)

theorem pairwise_insertAscending {address : Nat} {list : List Nat}
    (ascending : list.Pairwise (· < ·)) : (insertAscending address list).Pairwise (· < ·) := by
  induction list with
  | nil => simp [insertAscending]
  | cons first rest inductionHypothesis =>
      have firstBelow : ∀ other ∈ rest, first < other :=
        fun _ member => List.rel_of_pairwise_cons ascending member
      unfold insertAscending
      split
      · next below =>
          refine List.Pairwise.cons ?_ ascending
          intro other member
          rcases List.mem_cons.mp member with isFirst | inRest
          · omega
          · exact Nat.lt_trans below (firstBelow other inRest)
      · split
        · exact ascending
        · refine List.Pairwise.cons ?_ (inductionHypothesis ascending.of_cons)
          intro other member
          rcases mem_insertAscending.mp member with isAddress | inRest
          · omega
          · exact firstBelow other inRest

/-- Adds an address and tells whether it was absent. -/
def add (set : Breakpoints) (address : Nat) : Bool × Breakpoints :=
  (!set.contains address,
    ⟨insertAscending address set.addresses, pairwise_insertAscending set.ascending⟩)

theorem mem_add_iff {set : Breakpoints} {address other : Nat} :
    other ∈ (set.add address).2 ↔ other = address ∨ other ∈ set := mem_insertAscending

/-- Removes an address and tells whether it was present. -/
def remove (set : Breakpoints) (address : Nat) : Bool × Breakpoints :=
  (set.contains address,
    ⟨set.addresses.filter (· ≠ address), set.ascending.filter _⟩)

/-- Removes every address. -/
def clear (_ : Breakpoints) : Breakpoints := empty

/-- The set of the members of a list. -/
def ofList (addresses : List Nat) : Breakpoints :=
  addresses.foldl (fun set address => (set.add address).2) empty

theorem mem_foldl_add_iff {set : Breakpoints} {addresses : List Nat} {other : Nat} :
    other ∈ addresses.foldl (fun set address => (set.add address).2) set ↔
      other ∈ addresses ∨ other ∈ set := by
  induction addresses generalizing set with
  | nil => exact ⟨.inr, fun | .inr member => member⟩
  | cons address rest inductionHypothesis =>
      rw [List.foldl_cons, inductionHypothesis, mem_add_iff, List.mem_cons, or_assoc, or_left_comm]

theorem mem_ofList_iff {addresses : List Nat} {other : Nat} :
    other ∈ ofList addresses ↔ other ∈ addresses := by
  rw [ofList, mem_foldl_add_iff]
  exact ⟨fun | .inl member => member, .inl⟩

end Breakpoints

end RegisterMachine
