import RegisterMachine.Proofs.Snapshot.Acceptance

/-!
Contract: a machine is restored from its snapshot without loss.

What is written is a record whose members describe the machine, so both readings
accept it and the second one makes up the same machine. The only condition is
that the program counter fits into 64 bits, which is the range of addresses that
can be read.

Owns: the members of a written snapshot, and the round trip.
Does not own: which other texts are accepted (`Proofs.Snapshot.Acceptance`);
what an engine does with the machine (`Proofs.Restoration`).
-/

namespace RegisterMachine

/-- The program counter is an address of 64 bits. -/
def Machine.Addressable (machine : Machine) : Prop :=
  ∀ address, machine.pc = some address → address < 0x10000000000000000

namespace Snapshot

open Json

/-! ## Written members -/

/-- The members of a snapshot as they are written. -/
def membersOf (machine : Machine) : List (String × Value) :=
  [("version", valueOfNatural version.toNat),
    ("memory", .list (valuesOfWords machine.memory.toList)),
    ("pc", valueOfCounter machine.pc),
    ("registers", .list (valuesOfWords machine.registers.toList)),
    ("stack", .list (valuesOfWords machine.stack.reverse)),
    ("result", valueOfNatural machine.result.toNat)]

theorem writes_membersOf (machine : Machine) :
    List.Forall₂ WritesMember (membersOf machine) (members machine) := by
  refine .cons (.plain rfl (written_ofNatural version.toNat)) ?_
  refine .cons (.plain rfl (written_ofWords machine.memory.toList)) ?_
  refine .cons (.plain rfl (written_ofCounter machine.pc)) ?_
  refine .cons (.plain rfl (written_ofWords machine.registers.toList)) ?_
  refine .cons (.plain rfl (written_ofWords machine.stack.reverse)) ?_
  exact .cons (.plain rfl (written_ofNatural machine.result.toNat)) .nil

theorem recordDocument_encode (machine : Machine) :
    RecordDocument (membersOf machine) (encode machine) :=
  recordDocument_of_writes (writes_membersOf machine)

theorem describes_membersOf {machine : Machine} (addressable : machine.Addressable) :
    Describes (membersOf machine) machine where
  version := ⟨_, rfl, word?_valueOfNatural version⟩
  memory := ⟨_, rfl, words?_valuesOfWords machine.memory.toList⟩
  registers := ⟨_, rfl, wordsOf?_valuesOfWords machine.registers.cells⟩
  stack := ⟨_, rfl, words?_valuesOfWords machine.stack.reverse⟩
  result := ⟨_, rfl, word?_valueOfNatural machine.result⟩
  pc := .inr ⟨_, rfl, counter?_valueOfCounter addressable⟩

/-! ## Both readings -/

/-- The first reading finds the version that is written. -/
theorem readAll_readProbe_encode (machine : Machine) :
    readAll readProbe (encode machine) = .ok (.record version) := by
  rw [readAll_readProbe_eq_ok_iff (recordDocument_encode machine)]
  exact ⟨_, rfl, word?_valueOfNatural version⟩

/-- The second reading makes up the machine that was written. -/
theorem readAll_readMachine_encode {machine : Machine} (addressable : machine.Addressable) :
    readAll readMachine (encode machine) = .ok machine := by
  rw [readAll_readMachine_eq_ok_iff (recordDocument_encode machine)]
  exact ((describes_iff machine).mp (describes_membersOf addressable)).2

/-- Whatever its memory, registers and stack hold, a machine comes back from its snapshot. -/
theorem decode_encode {machine : Machine} (addressable : machine.Addressable) :
    decode (encode machine) = .ok machine :=
  decode_of_readings (readAll_readProbe_encode machine) (readAll_readMachine_encode addressable)

/-- Stands at the last address that can be read. -/
def atLastAddress : Machine :=
  ⟨.ofList [0, 65535], .zero, [32768, 1], some 0xffffffffffffffff, 7⟩

theorem decode_encode_atLastAddress :
    atLastAddress.Addressable ∧ decode (encode atLastAddress) = .ok atLastAddress := by
  have addressable : atLastAddress.Addressable := by
    intro address stands
    cases stands
    decide
  exact ⟨addressable, decode_encode addressable⟩

end Snapshot

end RegisterMachine
