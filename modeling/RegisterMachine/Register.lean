import RegisterMachine.Word

/-!
Contract: the eight registers and their contents.

Owns: `Register`, its name, `RegisterFile` with reading and writing.
Does not own: how an operand names a register (`Operand`).
-/

namespace RegisterMachine

/-- One of the registers R0 to R7. -/
abbrev Register := Fin 8

namespace Register

/-- The register with this index, if there is one. -/
def ofIndex? (index : Nat) : Option Register :=
  if bound : index < 8 then some ⟨index, bound⟩ else none

theorem val_of_ofIndex? {index : Nat} {register : Register}
    (found : ofIndex? index = some register) : register.val = index := by
  unfold ofIndex? at found
  split at found
  · cases found
    rfl
  · contradiction

@[simp] theorem ofIndex?_val (register : Register) : ofIndex? register.val = some register := by
  simp [ofIndex?]

/-- The registers in ascending order. -/
def all : List Register := List.finRange 8

def name (register : Register) : String := s!"R{register.val}"

end Register

/-- The contents of all registers. -/
structure RegisterFile where
  cells : Vector Word 8
deriving DecidableEq, Repr

namespace RegisterFile

/-- Every register holds zero. -/
def zero : RegisterFile := ⟨Vector.replicate 8 0⟩

instance : Inhabited RegisterFile := ⟨zero⟩

def get (file : RegisterFile) (register : Register) : Word := file.cells[register]

def set (file : RegisterFile) (register : Register) (value : Word) : RegisterFile :=
  ⟨file.cells.set register value⟩

def toList (file : RegisterFile) : List Word := file.cells.toList

/-- The register file with these contents, if there are exactly eight. -/
def ofArray? (words : Array Word) : Option RegisterFile :=
  if exact : words.size = 8 then some ⟨⟨words, exact⟩⟩ else none

@[simp] theorem get_set_same (file : RegisterFile) (register : Register) (value : Word) :
    (file.set register value).get register = value := by
  simp [get, set]

theorem get_set_other (file : RegisterFile) {register other : Register} (value : Word)
    (different : other ≠ register) :
    (file.set register value).get other = file.get other := by
  have indexNe : register.val ≠ other.val := fun equal => different (Fin.ext equal.symm)
  simp [get, set, indexNe]

end RegisterFile

end RegisterMachine
