import RegisterMachine.Environment.Desk
import RegisterMachine.Proofs.Snapshot.Acceptance
import RegisterMachine.Session

/-!
Contract: what a session does to the files of a desk.

Where a path leads does not depend on the files, so a file can be followed
through all that a session does: a change of one file leaves alone what paths
to other files lead to. An action of a session that succeeds is the succession
of its parts, each of which succeeds.

Owns: the content that a path leads to, successful actions, and what the
session's own accesses do.
Does not own: the order of a session's phases (`Proofs.Session.Batch`).
-/

namespace RegisterMachine

namespace Files

/-! ## Where a path leads -/

/-- The name of the plain file that a path leads to, whatever files there are. -/
def name? (path : String) : Option String := (empty.resolve path).toOption

/-- The paths do not lead to the same file. -/
def Apart (path other : String) : Prop :=
  ∀ name, name? path = some name → ∀ otherName, name? other = some otherName → name ≠ otherName

theorem Apart.symm {path other : String} (apart : Apart path other) : Apart other path :=
  fun _ leads _ otherLeads same => apart _ otherLeads _ leads same.symm

theorem toOption_resolveParts (files other : Files) (parts : List (List Char)) :
    (files.resolveParts parts).toOption = (other.resolveParts parts).toOption := by
  induction parts with
  | nil => rfl
  | cons first rest inductionHypothesis =>
      cases rest with
      | nil => rfl
      | cons second others =>
          unfold resolveParts
          split
          · exact inductionHypothesis
          · split <;> split <;> rfl

theorem toOption_resolve (files : Files) (path : String) :
    (files.resolve path).toOption = name? path := by
  unfold name? resolve
  split
  · rfl
  · exact toOption_resolveParts files empty _

theorem resolve_eq_ok_iff {files : Files} {path name : String} :
    files.resolve path = .ok name ↔ name? path = some name := by
  rw [← toOption_resolve files path, Snapshot.toOption_eq_some_iff]

/-- The content of the file that a path leads to. -/
def contentAt? (files : Files) (path : String) : Option Bytes := (name? path).bind files.content?

theorem toOption_read (files : Files) (path : String) :
    (files.read path).toOption = files.contentAt? path := by
  unfold read contentAt?
  rw [← toOption_resolve files path]
  cases files.resolve path with
  | error error => rfl
  | ok name =>
      simp only [Except.toOption, Option.bind_some]
      cases files.content? name <;> rfl

theorem read_eq_ok_iff {files : Files} {path : String} {content : Bytes} :
    files.read path = .ok content ↔ files.contentAt? path = some content := by
  rw [← toOption_read files path, Snapshot.toOption_eq_some_iff]

theorem modify_eq_ok_iff {files after : Files} {path : String} {change : Bytes → Bytes} :
    files.modify path change = .ok after ↔
      ∃ name, name? path = some name ∧
        after = files.set name (change ((files.content? name).getD [])) := by
  unfold modify
  cases resolved : files.resolve path with
  | error error =>
      rw [← toOption_resolve files path, resolved]
      simp [Except.toOption]
  | ok name =>
      rw [resolve_eq_ok_iff.mp resolved]
      simp [eq_comm]

/-- A changed file holds what the change makes of its content. -/
theorem contentAt?_of_modify {files after : Files} {path : String} {change : Bytes → Bytes}
    (changed : files.modify path change = .ok after) :
    after.contentAt? path = some (change ((files.contentAt? path).getD [])) := by
  obtain ⟨name, leads, rfl⟩ := modify_eq_ok_iff.mp changed
  simp [contentAt?, leads]

/-- Other files are left alone. -/
theorem contentAt?_of_modify_apart {files after : Files} {path other : String}
    {change : Bytes → Bytes} (changed : files.modify path change = .ok after)
    (apart : Apart path other) : after.contentAt? other = files.contentAt? other := by
  obtain ⟨name, leads, rfl⟩ := modify_eq_ok_iff.mp changed
  unfold contentAt?
  cases otherLeads : name? other with
  | none => rfl
  | some otherName =>
      have different : otherName ≠ name := (apart _ leads _ otherLeads).symm
      rw [Option.bind_some, Option.bind_some, content?_set, if_neg different]

end Files

/-- The value of an action at this desk, and the desk that it leaves behind. -/
def Desk.perform {α : Type} (desk : Desk) (action : StateM Desk α) : α × Desk := action desk

@[simp] theorem Desk.perform_pure {α : Type} (desk : Desk) (value : α) :
    desk.perform (pure value) = (value, desk) := rfl

@[simp] theorem Desk.perform_bind {α β : Type} (desk : Desk) (action : StateM Desk α)
    (next : α → StateM Desk β) :
    desk.perform (action >>= next) =
      (desk.perform action).2.perform (next (desk.perform action).1) := rfl

@[simp] theorem Desk.perform_changeFile (desk : Desk) (path : String) (change : FileChange) :
    desk.perform (Environment.changeFile path change) = desk.changeFile path change := rfl

namespace Session

open Files

/-! ## Successful actions -/

/-- The action succeeds with this value and leaves this desk behind. -/
def Succeeds {α : Type} (action : ExceptT Error (StateM Desk) α) (desk : Desk) (value : α)
    (after : Desk) : Prop :=
  desk.perform action.run = (.ok value, after)

section
variable {α β : Type} {desk after : Desk}

theorem perform_run_bind (action : ExceptT Error (StateM Desk) α)
    (next : α → ExceptT Error (StateM Desk) β) (desk : Desk) :
    desk.perform (action >>= next).run =
      match desk.perform action.run with
      | (.ok first, middle) => middle.perform (next first).run
      | (.error error, middle) => (.error error, middle) := by
  show (desk.perform action.run).2.perform
    (ExceptT.bindCont next (desk.perform action.run).1) = _
  rcases desk.perform action.run with ⟨_ | _, _⟩ <;> rfl

/-- An action succeeds exactly if its parts do, one after the other. -/
theorem succeeds_bind_iff {action : ExceptT Error (StateM Desk) α}
    {next : α → ExceptT Error (StateM Desk) β} {value : β} :
    Succeeds (action >>= next) desk value after ↔
      ∃ first middle, Succeeds action desk first middle ∧
        Succeeds (next first) middle value after := by
  unfold Succeeds
  rw [perform_run_bind]
  rcases desk.perform action.run with ⟨error | first, middle⟩
  · simp
  · constructor
    · intro made
      exact ⟨first, middle, rfl, made⟩
    · rintro ⟨_, _, same, made⟩
      cases same
      exact made

@[simp] theorem succeeds_pure_iff {value result : α} :
    Succeeds (pure value) desk result after ↔ result = value ∧ after = desk := by
  simp [Succeeds, eq_comm]

@[simp] theorem not_succeeds_throw {error : Error} {value : α} :
    ¬ Succeeds (throw error) desk value after := nofun

/-! ## Accesses -/

/-- An action that cannot fail goes before the rest. -/
theorem succeeds_lift_bind_iff {action : StateM Desk α}
    {next : α → ExceptT Error (StateM Desk) β} {value : β} :
    Succeeds (liftM action >>= next) desk value after ↔
      Succeeds (next (desk.perform action).1) (desk.perform action).2 value after := Iff.rfl

theorem succeeds_readFile_iff {path : String} {content : Bytes} :
    Succeeds (readFile path) desk content after ↔
      desk.files.read path = .ok content ∧ after = desk := by
  have reads : desk.perform (Environment.readFile path) = (desk.files.read path, desk) := rfl
  rw [readFile, succeeds_lift_bind_iff, reads]
  cases desk.files.read path with
  | ok found => simp [eq_comm]
  | error error => simp

/-- Only the file that is named has been changed, if one is. -/
inductive Changes (path? : Option String) (change : FileChange) (desk after : Desk) : Prop where
  | nothing
      (unnamed : path? = none)
      (same : after = desk)
  | made {path : String} {files : Files}
      (named : path? = some path)
      (modified : desk.files.modify path change.apply = .ok files)
      (left : after = { desk with files })

section
variable {path? : Option String} {path other : String} {change : FileChange}

theorem Changes.output (changes : Changes path? change desk after) :
    after.output = desk.output := by
  cases changes with
  | nothing _ same => rw [same]
  | made _ _ left => rw [left]

theorem Changes.contentAt? (changes : Changes path? change desk after) (named : path? = some path) :
    after.files.contentAt? path =
      some (change.apply ((desk.files.contentAt? path).getD [])) := by
  cases changes with
  | nothing unnamed _ => cases unnamed.symm.trans named
  | made isNamed modified left =>
      cases isNamed.symm.trans named
      rw [left]
      exact contentAt?_of_modify modified

theorem Changes.contentAt?_apart (changes : Changes path? change desk after)
    (apart : ∀ path, path? = some path → Apart path other) :
    after.files.contentAt? other = desk.files.contentAt? other := by
  cases changes with
  | nothing _ same => rw [same]
  | made named modified left =>
      rw [left]
      exact contentAt?_of_modify_apart modified (apart _ named)

end

theorem succeeds_changeFile_iff {path : String} {change : FileChange} :
    Succeeds (changeFile path change) desk () after ↔ Changes (some path) change desk after := by
  rw [changeFile, succeeds_lift_bind_iff, Desk.perform_changeFile, Desk.changeFile]
  constructor
  · intro done
    cases modified : desk.files.modify path change.apply with
    | ok files =>
        rw [modified] at done
        exact .made rfl modified (succeeds_pure_iff.mp done).2
    | error error =>
        rw [modified] at done
        exact absurd done not_succeeds_throw
  · intro changes
    cases changes with
    | nothing unnamed _ => cases unnamed
    | made named modified left =>
        cases named
        rw [modified]
        exact succeeds_pure_iff.mpr ⟨rfl, left⟩

theorem perform_recordAll (desk : Desk) (events : List Log.Event) :
    desk.perform (Environment.recordAll events) =
      ((), { desk with journal := desk.journal ++ events.map Notice.event }) := by
  induction events generalizing desk with
  | nil => simp [Environment.recordAll]
  | cons event rest inductionHypothesis =>
      show (desk.note (.event event)).perform (Environment.recordAll rest) = _
      rw [inductionHypothesis]
      simp [Desk.note]

/-- Records change nothing but the journal. -/
theorem succeeds_recordAll_iff {events : List Log.Event} :
    Succeeds (recordAll events) desk () after ↔
      after = { desk with journal := desk.journal ++ events.map Notice.event } := by
  have unfolds : desk.perform (recordAll events : ExceptT Error (StateM Desk) Unit).run =
      (.ok (), (desk.perform (Environment.recordAll events)).2) := rfl
  rw [Succeeds, unfolds, perform_recordAll]
  simp [eq_comm]

end

end Session

end RegisterMachine
