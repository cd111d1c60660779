import Mathlib.Logic.Relation
import RegisterMachine.Proofs.Consistency

/-!
Contract: loading and restoring leave no trace of what an engine has been.

An engine that loads a program is the one that is made for this program, whatever
has been done with it: nothing of its machine, its breakpoints, its pause or its
halt is left, and no operation has changed its configuration. Restoring a machine
keeps breakpoints and configuration, and nothing else.

Owns: `Engine.Becomes`, and engines that load or restore after any operations.
Does not own: how a restored engine goes on beside the saved one
(`Proofs.Restoration`).
-/

namespace RegisterMachine.Engine

/-- An operation, on some host, makes one engine of another. -/
def Operates (engine after : Engine) : Prop :=
  ∃ (H : Type) (_ : Host H) (host : H) (operation : Operation),
    after = (engine.operate host operation).engine

/-- Operations, each of them on any host, make one engine of another. -/
def Becomes : Engine → Engine → Prop := Relation.ReflTransGen Operates

variable {start engine otherStart other left right : Engine}

theorem becomes_foldl_operate {H : Type} [Host H] (engine : Engine) (host : H)
    (operations : List Operation) :
    engine.Becomes
      (operations.foldl (fun engine operation => (engine.operate host operation).engine) engine) := by
  induction operations generalizing engine with
  | nil => exact .refl
  | cons operation later inductionHypothesis =>
      exact .head ⟨H, _, host, operation, rfl⟩ (inductionHypothesis _)

/-! ## Configuration -/

theorem config_operate {H : Type} [Host H] (engine : Engine) (host : H) (operation : Operation) :
    (engine.operate host operation).engine.config = engine.config := by
  cases operation with
  | step count => exact (keptByCycles_settings.step engine host count).1
  | run fuel => exact (keptByCycles_settings.run engine host fuel).1
  | halt | jump _ | write _ _ | setRegister _ _ | push _ | pop => rfl
  | addBreakpoint _ | removeBreakpoint _ | clearBreakpoints => rfl
  | load _ | restore _ => rfl

/-- An engine has the configuration that it was made with. -/
theorem config_of_becomes (becomes : start.Becomes engine) : engine.config = start.config := by
  induction becomes with
  | refl => rfl
  | tail _ operates inductionHypothesis =>
      obtain ⟨_, _, host, operation, rfl⟩ := operates
      rw [config_operate, inductionHypothesis]

/-! ## Loading and restoring -/

theorem load_eq_fresh (engine : Engine) (image : Bytes) :
    engine.load image = fresh (.ofBytes image) engine.config := rfl

theorem restore_eq_restore_iff {machine : Machine} :
    left.restore machine = right.restore machine ↔
      left.breakpoints = right.breakpoints ∧ left.config = right.config := by
  constructor
  · intro same
    obtain ⟨_, breakpoints, config, _⟩ := Engine.mk.inj same
    exact ⟨breakpoints, config⟩
  · rintro ⟨breakpoints, config⟩
    rw [restore, restore, breakpoints, config]

/-- Whatever has been done with an engine, loading a program makes it the one that is new with this
program and the configuration of old, so that nothing done with it later tells the two apart.
Restoring a machine makes two engines equal exactly if their breakpoints and configurations are,
whatever has been done with them. -/
theorem loading_and_restoring_forget (becomes : start.Becomes engine)
    (otherBecomes : otherStart.Becomes other) :
    engine.config = start.config ∧
      (∀ image, engine.load image = fresh (.ofBytes image) engine.config ∧
        ∀ {H : Type} [Host H] (host : H) (turns : List (Turn H)),
          (engine.load image).replay host turns =
            (fresh (.ofBytes image) engine.config).replay host turns) ∧
      ∀ machine, engine.restore machine = other.restore machine ↔
        engine.breakpoints = other.breakpoints ∧ start.config = otherStart.config := by
  have config := config_of_becomes becomes
  have otherConfig := config_of_becomes otherBecomes
  refine ⟨config, ?_, ?_⟩
  · intro image
    have loaded := load_eq_fresh engine image
    refine ⟨loaded, ?_⟩
    intro H _ host turns
    rw [loaded]
  · intro machine
    rw [restore_eq_restore_iff, config, otherConfig]

/-- The operations that lead to `finished`. -/
def beforeFinished : List Operation :=
  [.addBreakpoint 1, .push 7, .write 3 9, .step 1]

/-- Has executed `halt`, with a breakpoint that it never came to. -/
def finished : Engine :=
  beforeFinished.foldl
    (fun engine operation => (engine.operate (BufferedHost.start true) operation).engine)
    (fresh (.ofList [0]) .standard)

theorem loading_and_restoring_forget_of_intercepted :
    (fresh (.ofList [21, 0]) .standard).Becomes intercepted ∧
      (fresh (.ofList [0]) .standard).Becomes finished ∧ intercepted ≠ finished ∧
      intercepted.load [19, 0, 65, 0] = fresh (.ofList [19, 65]) .standard ∧
      ∀ machine, intercepted.restore machine = finished.restore machine := by
  have becomes : (fresh (.ofList [21, 0]) .standard).Becomes intercepted :=
    becomes_foldl_operate _ (BufferedHost.start true) beforeIntercepted
  have otherBecomes : (fresh (.ofList [0]) .standard).Becomes finished :=
    becomes_foldl_operate _ (BufferedHost.start true) beforeFinished
  obtain ⟨config, loads, restores⟩ := loading_and_restoring_forget becomes otherBecomes
  refine ⟨becomes, otherBecomes, by decide, ?_, ?_⟩
  · rw [(loads [19, 0, 65, 0]).1, config]
    rfl
  · exact fun machine => (restores machine).mpr ⟨by decide, rfl⟩

end RegisterMachine.Engine
