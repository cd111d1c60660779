import RegisterMachine.Host.Buffered
import RegisterMachine.Proofs.Faults

/-!
Contract: the bottom of the stack is untouchable and irrelevant.

An instruction reaches the stack only through its top, and asks for nothing
else of it than whether there is one. So words below the stack change no cycle
unless it would underflow without them, and whoever leaves the words alone that
a call has left on the stack finds them there.

Owns: engines on top of other words, cycles that are attempted one after the
other, calls and their returns.
Does not own: which instructions reach the stack at all (`Proofs.OpcodeTable`).
-/

namespace RegisterMachine

/-! ## Words below the stack -/

/-- The machine with more words below its stack. -/
def Machine.onTop (machine : Machine) (bottom : List Word) : Machine :=
  { machine with stack := machine.stack ++ bottom }

/-- The engine with more words below the stack of its machine. -/
def Engine.onTop (engine : Engine) (bottom : List Word) : Engine :=
  { engine with machine := engine.machine.onTop bottom }

/-- The same execution on top of other words. -/
def Execution.onTop {H : Type} (execution : Execution H) (bottom : List Word) : Execution H :=
  { execution with machine := execution.machine.onTop bottom }

/-- The instruction has taken from an empty stack. -/
def Execution.Underflows {H : Type} (execution : Execution H) : Prop :=
  ∃ opcode, execution.result = .error (.stackUnderflow opcode)

/-- The outcome is a halt because of an empty stack. -/
def Outcome.underflows : Outcome → Bool
  | .halted _ (.fault (.stackUnderflow _)) => true
  | _ => false

section
variable {H : Type} {instruction : Instruction} {machine : Machine} {host : H}

theorem assign_onTop (bottom : List Word) (value : Word) :
    assign instruction (machine.onTop bottom) host value =
      (assign instruction machine host value).onTop bottom := by
  unfold assign
  split <;> rfl

theorem assignRemainder_onTop (bottom : List Word) :
    assignRemainder instruction (machine.onTop bottom) host =
      (assignRemainder instruction machine host).onTop bottom := by
  have divisor : instruction.source (machine.onTop bottom) 2 = instruction.source machine 2 := rfl
  unfold assignRemainder
  rw [divisor]
  split
  · rfl
  · split <;> rfl

theorem popTo_onTop (bottom : List Word)
    (fits : ¬ (popTo instruction machine host).Underflows) :
    popTo instruction (machine.onTop bottom) host =
      (popTo instruction machine host).onTop bottom := by
  obtain ⟨memory, registers, stack, pc, result⟩ := machine
  unfold popTo at fits ⊢
  split
  · rfl
  · next named =>
      cases stack with
      | nil =>
          rw [named] at fits
          exact absurd ⟨_, rfl⟩ fits
      | cons top rest => rfl

theorem returnToTop_onTop (bottom : List Word)
    (fits : ¬ (returnToTop instruction machine host).Underflows) :
    returnToTop instruction (machine.onTop bottom) host =
      (returnToTop instruction machine host).onTop bottom := by
  obtain ⟨memory, registers, stack, pc, result⟩ := machine
  cases stack with
  | nil => exact absurd ⟨_, rfl⟩ fits
  | cons top rest => rfl

theorem callTarget_onTop (bottom : List Word) :
    callTarget instruction (machine.onTop bottom) host =
      (callTarget instruction machine host).onTop bottom := by
  unfold callTarget
  split <;> rfl

variable [Host H]

theorem receive_onTop (bottom : List Word) :
    receive instruction (machine.onTop bottom) host =
      (receive instruction machine host).onTop bottom := by
  unfold receive
  split
  · rfl
  · split <;> rfl

/-- An instruction that does not underflow does the same on top of other words. -/
theorem execute_onTop (bottom : List Word)
    (fits : ¬ (execute instruction machine host).Underflows) :
    execute instruction (machine.onTop bottom) host =
      (execute instruction machine host).onTop bottom := by
  unfold execute at fits ⊢
  cases opcode : instruction.opcode with
  | set | equal | greater | add | multiply | bitAnd | bitOr | bitNot | readMemory =>
      exact assign_onTop bottom _
  | modulo => exact assignRemainder_onTop bottom
  | pop =>
      rw [opcode] at fits
      exact popTo_onTop bottom fits
  | «return» =>
      rw [opcode] at fits
      exact returnToTop_onTop bottom fits
  | call => exact callTarget_onTop bottom
  | input => exact receive_onTop bottom
  | halt | noop | push | jump | jumpIfTrue | jumpIfFalse | writeMemory | output => rfl

end

namespace Engine

section
variable {H : Type} {engine : Engine} {host : H}

theorem conclude_onTop (engine : Engine) (instruction : Instruction) (execution : Execution H)
    (bottom : List Word) :
    (engine.onTop bottom).conclude instruction (execution.onTop bottom) =
      (engine.conclude instruction execution).mapEngine (·.onTop bottom) := by
  obtain ⟨result, machine, host⟩ := execution
  unfold conclude Execution.onTop
  simp only
  split <;> rfl

theorem underflows_conclude {instruction : Instruction} {execution : Execution H}
    (underflows : execution.Underflows) :
    (engine.conclude instruction execution).outcome.underflows = true := by
  obtain ⟨opcode, result⟩ := underflows
  simp only [conclude, result]
  rfl

variable [Host H]

theorem handle_onTop {instruction : Instruction} {bypass : Bool} (bottom : List Word)
    (fits : (engine.handle host bypass instruction).outcome.underflows = false) :
    (engine.onTop bottom).handle host bypass instruction =
      (engine.handle host bypass instruction).mapEngine (·.onTop bottom) := by
  have breakpoints : (engine.onTop bottom).breakpoints = engine.breakpoints := rfl
  have announced (breaking : Bool) :
      announce (engine.onTop bottom).config.tracing host instruction
        (engine.onTop bottom).machine.registers breaking =
      announce engine.config.tracing host instruction engine.machine.registers breaking := rfl
  unfold handle at fits ⊢
  simp only [breakpoints, announced] at fits ⊢
  split
  · rfl
  · next passing =>
      rw [if_neg passing, perform_eq_conclude] at fits
      rw [perform_eq_conclude, perform_eq_conclude]
      have executes := execute_onTop bottom fun underflows =>
        Bool.false_ne_true (fits.symm.trans (underflows_conclude underflows))
      show (engine.onTop bottom).conclude _ (execute _ (engine.machine.onTop bottom) _) = _
      rw [executes, conclude_onTop]

/-- A cycle that does not underflow does the same on top of other words. -/
theorem cycle_onTop {bypass : Bool} (bottom : List Word)
    (fits : engine.machine.pc = none ∨ (engine.cycle host bypass).outcome.underflows = false) :
    (engine.onTop bottom).cycle host bypass =
      (engine.cycle host bypass).mapEngine (·.onTop bottom) := by
  have counters : (engine.onTop bottom).machine.pc = engine.machine.pc := rfl
  cases counter : engine.machine.pc with
  | none =>
      rw [cycle_of_halted counter, cycle_of_halted (counters.trans counter)]
      rfl
  | some pc =>
      have fits := fits.resolve_left (by rw [counter]; exact Option.some_ne_none pc)
      have memories : (engine.onTop bottom).machine.memory = engine.machine.memory := rfl
      unfold cycle at fits ⊢
      simp only [counters, counter, memories] at fits ⊢
      cases found : decode engine.machine.memory pc with
      | endOfProgram => rfl
      | fault fault => rfl
      | instruction instruction =>
          simp only [found] at fits ⊢
          exact handle_onTop bottom fits

/-! ## Cycles whatever their outcomes -/

/-- Attempts one cycle after the other, whatever their outcomes; each of them obeys or ignores
breakpoints. -/
def trail (engine : Engine) (host : H) : (bypasses : List Bool) → List (Progress H)
  | [] => []
  | bypass :: later =>
      let progress := engine.cycle host bypass
      progress :: progress.engine.trail progress.host later

/-- The engine and its host after these attempts. -/
def attempt (engine : Engine) (host : H) : (bypasses : List Bool) → Engine × H
  | [] => (engine, host)
  | bypass :: later =>
      let progress := engine.cycle host bypass
      progress.engine.attempt progress.host later

/-- No cycle takes from an empty stack. A machine that has been halted before takes nothing. -/
def NeverUnderflows (engine : Engine) (host : H) (bypasses : List Bool) : Prop :=
  engine.machine.pc = none ∨
    ∀ progress ∈ engine.trail host bypasses, progress.outcome.underflows = false

instance (engine : Engine) (host : H) (bypasses : List Bool) :
    Decidable (engine.NeverUnderflows host bypasses) :=
  inferInstanceAs (Decidable (_ ∨ _))

theorem NeverUnderflows.first {bypass : Bool} {later : List Bool}
    (never : engine.NeverUnderflows host (bypass :: later)) :
    engine.machine.pc = none ∨ (engine.cycle host bypass).outcome.underflows = false :=
  never.imp_right fun fits => fits _ List.mem_cons_self

theorem NeverUnderflows.later {bypass : Bool} {later : List Bool}
    (never : engine.NeverUnderflows host (bypass :: later)) :
    (engine.cycle host bypass).engine.NeverUnderflows (engine.cycle host bypass).host later := by
  rcases never with halted | fits
  · rw [cycle_of_halted halted]
    exact .inl halted
  · exact .inr fun progress member => fits progress (List.mem_cons_of_mem _ member)

/-- Cycles that do not underflow do the same on top of other words, and leave these alone. -/
theorem trail_onTop {bypasses : List Bool} (bottom : List Word)
    (never : engine.NeverUnderflows host bypasses) :
    (engine.onTop bottom).trail host bypasses =
      (engine.trail host bypasses).map (·.mapEngine (·.onTop bottom)) := by
  induction bypasses generalizing engine host with
  | nil => rfl
  | cons bypass later inductionHypothesis =>
      rw [trail, cycle_onTop bottom never.first, trail, List.map_cons]
      exact congrArg (_ :: ·) (inductionHypothesis never.later)

end

/-! ## Words that are left alone -/

section
variable {H : Type} {engine : Engine} {host : H}

/-- What a cycle can make of a stack. -/
inductive StackMove (stack : List Word) : List Word → Prop where
  | still : StackMove stack stack
  | pushed (value : Word) : StackMove stack (value :: stack)
  | popped {top : Word} {rest : List Word} (holds : stack = top :: rest) : StackMove stack rest

theorem stackMove_of_altered {machine after : Machine} (altered : machine.Altered after) :
    StackMove machine.stack after.stack := by
  cases altered with
  | nothing | register _ _ | cell _ _ => exact .still
  | pushed value => exact .pushed value
  | popped holds | poppedTo _ holds => exact .popped holds

theorem stackMove_conclude {instruction : Instruction} {execution : Execution H}
    (move : StackMove engine.machine.stack execution.machine.stack) :
    StackMove engine.machine.stack
      (engine.conclude instruction execution).engine.machine.stack := by
  unfold conclude
  split <;> exact move

variable [Host H]

theorem stackMove_handle (engine : Engine) (host : H) (bypass : Bool)
    (instruction : Instruction) :
    StackMove engine.machine.stack
      (engine.handle host bypass instruction).engine.machine.stack := by
  unfold handle
  simp only
  split
  · exact .still
  · rw [perform_eq_conclude]
    exact stackMove_conclude (stackMove_of_altered (altered_execute instruction _ _))

theorem stackMove_cycle (engine : Engine) (host : H) (bypass : Bool) :
    StackMove engine.machine.stack (engine.cycle host bypass).engine.machine.stack := by
  cases engine.cycleStart with
  | halted _ cycles | stops _ _ _ cycles =>
      rw [cycles]
      exact .still
  | @fetches instruction _ _ cycles =>
      rw [cycles]
      exact stackMove_handle { engine with suspension := none } host bypass instruction

/-- Words stay at the bottom for as long as the stack is no lower than they are. -/
theorem StackMove.suffix {kept stack after : List Word} (move : StackMove stack after)
    (isKept : kept <:+ stack) (high : kept.length ≤ after.length) : kept <:+ after := by
  cases move with
  | still => exact isKept
  | pushed value => exact isKept.trans (List.suffix_cons value stack)
  | @popped top _ holds =>
      rw [holds] at isKept
      exact List.suffix_of_suffix_length_le isKept (List.suffix_cons top after) high

theorem suffix_of_attempt {kept : List Word} {bypasses : List Bool}
    (isKept : kept <:+ engine.machine.stack)
    (high : ∀ progress ∈ engine.trail host bypasses,
      kept.length ≤ progress.engine.machine.stack.length) :
    kept <:+ (engine.attempt host bypasses).1.machine.stack := by
  induction bypasses generalizing engine host with
  | nil => exact isKept
  | cons bypass later inductionHypothesis =>
      have still := (stackMove_cycle engine host bypass).suffix isKept
        (high _ List.mem_cons_self)
      exact inductionHypothesis still fun progress member =>
        high progress (List.mem_cons_of_mem _ member)

/-! ## Calls -/

/-- The instruction is the next one to be fetched. -/
structure StandsAt (engine : Engine) (instruction : Instruction) : Prop where
  counter : engine.machine.pc = some instruction.address
  fetched : decode engine.machine.memory instruction.address = .instruction instruction

theorem StandsAt.cycle {instruction : Instruction} (stands : engine.StandsAt instruction)
    (host : H) (bypass : Bool) :
    engine.cycle host bypass =
      { engine with suspension := none }.handle host bypass instruction := by
  simp only [Engine.cycle, stands.counter, stands.fetched]

/-- A call that is completed has pushed the address after it. -/
theorem stack_of_call {call : Instruction} {bypass : Bool} (stands : engine.StandsAt call)
    (calls : call.opcode = .call) (completed : (engine.cycle host bypass).outcome = .completed) :
    ∃ returns : Word, returns.toNat = call.next ∧
      (engine.cycle host bypass).engine.machine.stack = returns :: engine.machine.stack := by
  have executes (told : H) :
      execute call engine.machine told = callTarget call engine.machine told := by
    unfold execute
    rw [calls]
  rw [stands.cycle] at completed ⊢
  unfold handle at completed ⊢
  simp only [perform_eq_conclude, executes] at completed ⊢
  split at completed
  · cases completed
  · next passing =>
      rw [if_neg passing]
      unfold callTarget at completed ⊢
      split at completed
      · next fits =>
          rw [if_pos fits]
          exact ⟨UInt16.ofNat call.next, UInt16.toNat_ofNat_of_lt fits, rfl⟩
      · cases completed

/-- A return takes the word on top of the stack for the address to go on at. -/
theorem cycle_of_return {back : Instruction} {bypass : Bool} {top : Word} {rest : List Word}
    (stands : engine.StandsAt back) (returns : back.opcode = .return)
    (passes : bypass = true ∨ back.address ∉ engine.breakpoints)
    (holds : engine.machine.stack = top :: rest) (host : H) :
    (engine.cycle host bypass).outcome = .completed ∧
      (engine.cycle host bypass).engine.machine.pc = some top.toNat ∧
      (engine.cycle host bypass).engine.machine.stack = rest := by
  have executes (told : H) : execute back engine.machine told =
      ⟨.ok (.jump top.toNat), { engine.machine with stack := rest }, told⟩ := by
    unfold execute
    simp only [returns, returnToTop, Machine.pop, holds]
  have handled := handle_of_passes { engine with suspension := none } passes host
  rw [stands.cycle, handled]
  simp only [executes]
  exact ⟨rfl, rfl, rfl⟩

/-- A call, the cycles after it, and the return that takes what the call has pushed: neither this
address nor the words below it are taken in between. -/
structure Encloses (engine : Engine) (host : H) (call back : Instruction) (bypass : Bool)
    (bypasses : List Bool) (bypassBack : Bool) : Prop where
  stands : engine.StandsAt call
  calls : call.opcode = .call
  completed : (engine.cycle host bypass).outcome = .completed
  untouched : ∀ progress ∈ engine.trail host (bypass :: bypasses),
    engine.machine.stack.length < progress.engine.machine.stack.length
  standsBack : (engine.attempt host (bypass :: bypasses)).1.StandsAt back
  returns : back.opcode = .return
  passes : bypassBack = true ∨
    back.address ∉ (engine.attempt host (bypass :: bypasses)).1.breakpoints
  level : (engine.attempt host (bypass :: bypasses)).1.machine.stack.length =
    engine.machine.stack.length + 1

theorem Encloses.holds {call back : Instruction} {bypass bypassBack : Bool} {bypasses : List Bool}
    (encloses : engine.Encloses host call back bypass bypasses bypassBack) :
    ∃ returns : Word, returns.toNat = call.next ∧
      (engine.attempt host (bypass :: bypasses)).1.machine.stack =
        returns :: engine.machine.stack := by
  obtain ⟨returns, isNext, pushed⟩ :=
    stack_of_call encloses.stands encloses.calls encloses.completed
  have left : returns :: engine.machine.stack <:+
      (engine.cycle host bypass).engine.machine.stack := ⟨[], pushed.symm⟩
  have kept := suffix_of_attempt left fun progress member =>
    encloses.untouched progress (List.mem_cons_of_mem _ member)
  exact ⟨returns, isNext, (kept.eq_of_length encloses.level.symm).symm⟩

end

/-- Cycles that do not underflow do the same on top of any words, and leave these alone. A return
goes on behind the call whose address it takes, with the stack from before the call. -/
theorem bottom_is_irrelevant {H : Type} [Host H] :
    (∀ (engine : Engine) (host : H) (bypasses : List Bool) (bottom : List Word),
      engine.NeverUnderflows host bypasses →
        (engine.onTop bottom).trail host bypasses =
          (engine.trail host bypasses).map (·.mapEngine (·.onTop bottom))) ∧
    ∀ (engine last : Engine) (host lastHost : H) (call back : Instruction)
      (bypass bypassBack : Bool) (bypasses : List Bool),
      engine.Encloses host call back bypass bypasses bypassBack →
        engine.attempt host (bypass :: bypasses) = (last, lastHost) →
          (last.cycle lastHost bypassBack).outcome = .completed ∧
            (last.cycle lastHost bypassBack).engine.machine.pc = some call.next ∧
            (last.cycle lastHost bypassBack).engine.machine.stack = engine.machine.stack := by
  constructor
  · intro engine host bypasses bottom never
    exact trail_onTop bottom never
  · intro engine last host lastHost call back bypass bypassBack bypasses encloses reached
    obtain ⟨returns, isNext, holds⟩ := encloses.holds
    have stands := encloses.standsBack
    have passes := encloses.passes
    rw [reached] at holds stands passes
    rw [← isNext]
    exact cycle_of_return stands encloses.returns passes holds lastHost

/-- Calls a function that pushes a word, pops it and returns. -/
def callThenReturn : Engine := fresh (.ofList [17, 3, 0, 2, 7, 3, 32768, 18]) .standard

def callInstruction : Instruction := ⟨0, .call, [3], rfl⟩

def returnInstruction : Instruction := ⟨7, .return, [], rfl⟩

theorem encloses_callThenReturn :
    callThenReturn.Encloses (BufferedHost.start false) callInstruction returnInstruction false
      [false, false] false where
  stands := ⟨rfl, by decide⟩
  calls := rfl
  completed := by decide
  untouched := by decide
  standsBack := ⟨by decide, by decide⟩
  returns := rfl
  passes := .inr (by decide)
  level := by decide

theorem bottom_is_irrelevant_of_callThenReturn :
    callThenReturn.NeverUnderflows (BufferedHost.start false) [false, true, false, false] ∧
    (callThenReturn.onTop [9]).trail (BufferedHost.start false) [false, true, false, false] =
      (callThenReturn.trail (BufferedHost.start false) [false, true, false, false]).map
        (·.mapEngine (·.onTop [9])) ∧
    callThenReturn.Encloses (BufferedHost.start false) callInstruction returnInstruction false
      [false, false] false ∧
    ∃ last lastHost,
      callThenReturn.attempt (BufferedHost.start false) [false, false, false] = (last, lastHost) ∧
      (last.cycle lastHost false).engine.machine.pc = some 2 ∧
      (last.cycle lastHost false).engine.machine.stack = [] := by
  have never : callThenReturn.NeverUnderflows (BufferedHost.start false)
      [false, true, false, false] := by decide
  obtain ⟨irrelevant, returns⟩ := bottom_is_irrelevant (H := BufferedHost)
  have back := returns callThenReturn _ (BufferedHost.start false) _ callInstruction
    returnInstruction false false [false, false] encloses_callThenReturn rfl
  exact ⟨never, irrelevant _ _ _ [9] never, encloses_callThenReturn, _, _, rfl, back.2.1, back.2.2⟩

end Engine

end RegisterMachine
