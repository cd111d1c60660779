import RegisterMachine.Fault
import RegisterMachine.Register

/-!
Contract: the two readings of an operand cell.

The words 32768 to 32775 name the registers R0 to R7. As a source, any other
word stands for itself; as a destination, any other word is a fault.

Owns: naming, resolving and checking of one operand.
Does not own: which role an operand has (`Opcode.roles`).
-/

namespace RegisterMachine

namespace Operand

/-- The register that a word names. -/
def register? (operand : Word) : Option Register :=
  if 32768 ≤ operand then Register.ofIndex? (operand.toNat - 32768) else none

def namesRegister (operand : Word) : Bool := (register? operand).isSome

/-- The word that names a register. -/
def ofRegister (register : Register) : Word := 32768 + UInt16.ofNat register.val

/-- The register of a destination operand. -/
def destination (operand : Word) : Except Fault Register :=
  match register? operand with
  | some register => .ok register
  | none => .error (.notARegister operand)

/-- The value of a source operand. -/
def resolve (file : RegisterFile) (operand : Word) : Word :=
  match register? operand with
  | some register => file.get register
  | none => operand

theorem toNat_ofRegister (register : Register) :
    (ofRegister register).toNat = 32768 + register.val := by
  have bound := register.isLt
  simp only [ofRegister, UInt16.toNat_add, UInt16.toNat_ofNat', UInt16.reduceToNat]
  omega

@[simp] theorem register?_ofRegister (register : Register) :
    register? (ofRegister register) = some register := by
  have named : (32768 : Word) ≤ ofRegister register := by
    rw [UInt16.le_iff_toNat_le, toNat_ofRegister]
    exact Nat.le_add_right _ _
  simp [register?, named, toNat_ofRegister]

theorem ofRegister_of_register? {operand : Word} {register : Register}
    (names : register? operand = some register) : ofRegister register = operand := by
  unfold register? at names
  split at names
  · next lower =>
      have lowerNat := UInt16.le_iff_toNat_le.mp lower
      have index := Register.val_of_ofIndex? names
      apply UInt16.toNat_inj.mp
      rw [toNat_ofRegister, index, Nat.add_comm]
      exact Nat.sub_add_cancel lowerNat
  · contradiction

end Operand

end RegisterMachine
