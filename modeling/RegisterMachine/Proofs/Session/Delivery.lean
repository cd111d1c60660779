import RegisterMachine.Proofs.Session.Access

/-!
Contract: what is written to log and trace arrives there.

The log is appended to and the trace is written at an offset, and both in
pieces, some while the machine runs and some when the session is over. As long
as no other file of the session is the same as one of them, the offset is always
the end of what has arrived, so in the end each file holds what it held when it
was opened, and after that all that was written to it, in order.

Owns: what the targets hold after changes that succeed.
Does not own: what is written to them (`Outbox`).
-/

namespace RegisterMachine.Session

open Files

/-- The files of the targets hold these texts. -/
def Holds (plan : Plan) (desk : Desk) (texts : Target → Bytes) : Prop :=
  ∀ target path, plan.file? target = some path →
    desk.files.contentAt? path = some (texts target)

/-- Nothing was printed, and only the files of the targets may have been changed. -/
structure Spares (plan : Plan) (desk after : Desk) : Prop where
  output : after.output = desk.output
  files : ∀ other, (∀ target path, plan.file? target = some path → Apart path other) →
    after.files.contentAt? other = desk.files.contentAt? other

/-- The targets have files of their own. -/
def TargetsApart (plan : Plan) : Prop :=
  ∀ target path, plan.file? target = some path → ∀ other otherPath,
    plan.file? other = some otherPath → target ≠ other → Apart path otherPath

/-- The file of a target is changed, if there is one. -/
def Writes (plan : Plan) (target : Target) (change : FileChange) (desk after : Desk) : Prop :=
  desk.perform (writeOpened plan target change) = (.ok (), after)

/-- Changes are made, all of them. -/
def Accepts (plan : Plan) (changes : List (Target × FileChange)) (desk after : Desk) : Prop :=
  ∃ results, desk.perform (writeAll plan changes) = (results, after) ∧
    ∀ attempt ∈ results, attempt.isOk = true

section
variable {plan : Plan} {desk middle after : Desk} {texts : Target → Bytes} {target : Target}
  {change : FileChange} {changes : List (Target × FileChange)}

theorem spares_refl (plan : Plan) (desk : Desk) : Spares plan desk desk where
  output := rfl
  files _ _ := rfl

theorem Spares.trans (first : Spares plan desk middle) (later : Spares plan middle after) :
    Spares plan desk after where
  output := later.output.trans first.output
  files other apart := (later.files other apart).trans (first.files other apart)

theorem Holds.congr (holds : Holds plan desk texts)
    (same : ∀ target path, plan.file? target = some path →
      after.files.contentAt? path = desk.files.contentAt? path) : Holds plan after texts :=
  fun target path named => (same target path named).trans (holds target path named)

/-! ## One change -/

theorem perform_writeOpened (plan : Plan) (target : Target) (change : FileChange) (desk : Desk) :
    desk.perform (writeOpened plan target change) =
      match plan.file? target with
      | none => (.ok (), desk)
      | some path =>
          match desk.files.modify path change.apply with
          | .ok files => (.ok (), { desk with files })
          | .error error => (.error (.file error), desk) := by
  unfold writeOpened
  cases plan.file? target with
  | none => rfl
  | some path =>
      simp only [Desk.perform_bind, Desk.perform_changeFile, Desk.changeFile]
      cases desk.files.modify path change.apply <;> rfl

theorem writes_iff :
    Writes plan target change desk after ↔ Changes (plan.file? target) change desk after := by
  rw [Writes, perform_writeOpened]
  constructor
  · intro done
    split at done
    · next unnamed =>
        cases done
        exact .nothing unnamed rfl
    · next path named =>
        split at done
        · next files modified =>
            cases done
            exact .made named modified rfl
        · cases done
  · intro changes
    cases changes with
    | nothing unnamed same => rw [unnamed, same]
    | made named modified left => simp only [named, modified, left]

theorem Writes.spares (writes : Writes plan target change desk after) : Spares plan desk after where
  output := (writes_iff.mp writes).output
  files _ apart := (writes_iff.mp writes).contentAt?_apart (apart target)

/-- What a parcel brings to its target arrives at the end of its file. -/
theorem Writes.holds_parcel {parcel : Parcel} {passed : Nat} (apart : TargetsApart plan)
    (holds : Holds plan desk texts)
    (atEnd : parcel.target = .trace → passed = (texts .trace).length)
    (writes : Writes plan (Outbox.change parcel.target passed parcel.content.toList).1
      (Outbox.change parcel.target passed parcel.content.toList).2 desk after) :
    Holds plan after fun target => texts target ++ parcel.brings target := by
  obtain ⟨target, content⟩ := parcel
  have isTarget : (Outbox.change target passed content.toList).1 = target := by
    cases target <;> rfl
  have arrives : (Outbox.change target passed content.toList).2.apply (texts target) =
      texts target ++ content.toList := by
    cases target with
    | log => rfl
    | trace =>
        rw [atEnd rfl]
        exact FileChange.apply_overwrite_length _ _
  rw [isTarget, writes_iff] at writes
  intro other path named
  have held := holds other path named
  simp only [Parcel.brings]
  by_cases same : target = other
  · subst same
    rw [writes.contentAt? named, held, Option.getD_some, arrives, if_pos rfl]
  · have untouched := writes.contentAt?_apart fun otherPath otherNamed =>
      apart target otherPath otherNamed other path named same
    rw [untouched, held, if_neg same, List.append_nil]

/-! ## All changes -/

theorem accepts_nil_iff : Accepts plan [] desk after ↔ after = desk := by
  constructor
  · rintro ⟨_, made, _⟩
    cases made
    rfl
  · rintro rfl
    exact ⟨[], rfl, nofun⟩

theorem accepts_cons_iff {first : Target × FileChange} :
    Accepts plan (first :: changes) desk after ↔
      ∃ middle, Writes plan first.1 first.2 desk middle ∧ Accepts plan changes middle after := by
  obtain ⟨target, change⟩ := first
  have unfolds : desk.perform (writeAll plan ((target, change) :: changes)) =
      match desk.perform (writeOpened plan target change) with
      | (first, middle) =>
          match middle.perform (writeAll plan changes) with
          | (others, after) => (first :: others, after) := rfl
  unfold Accepts Writes
  rw [unfolds]
  rcases desk.perform (writeOpened plan target change) with ⟨first, middle⟩
  simp only
  constructor
  · rintro ⟨_, made, accepted⟩
    cases made
    obtain ⟨isFirst, others⟩ := List.forall_mem_cons.mp accepted
    cases first with
    | error error => cases isFirst
    | ok _ => exact ⟨middle, rfl, _, rfl, others⟩
  · rintro ⟨_, isFirst, others, made, accepted⟩
    cases isFirst
    rw [made]
    exact ⟨_, rfl, List.forall_mem_cons.mpr ⟨rfl, accepted⟩⟩

theorem accepts_singleton_iff {only : Target × FileChange} :
    Accepts plan [only] desk after ↔ Writes plan only.1 only.2 desk after := by
  simp only [accepts_cons_iff, accepts_nil_iff, exists_eq_right']

theorem accepts_append_iff {earlier later : List (Target × FileChange)} :
    Accepts plan (earlier ++ later) desk after ↔
      ∃ middle, Accepts plan earlier desk middle ∧ Accepts plan later middle after := by
  induction earlier generalizing desk with
  | nil => simp [accepts_nil_iff]
  | cons first rest inductionHypothesis =>
      simp only [List.cons_append, accepts_cons_iff, inductionHypothesis]
      constructor
      · rintro ⟨next, writes, middle, accepts, others⟩
        exact ⟨middle, ⟨next, writes, accepts⟩, others⟩
      · rintro ⟨middle, ⟨next, writes, accepts⟩, others⟩
        exact ⟨next, writes, middle, accepts, others⟩

theorem Accepts.spares (accepts : Accepts plan changes desk after) : Spares plan desk after := by
  induction changes generalizing desk with
  | nil =>
      rw [accepts_nil_iff.mp accepts]
      exact spares_refl plan desk
  | cons first rest inductionHypothesis =>
      obtain ⟨middle, writes, others⟩ := accepts_cons_iff.mp accepts
      exact writes.spares.trans (inductionHypothesis others)

/-! ## Parcels -/

theorem foldl_passed (target : Target) (count : Nat) (parcels : List Parcel) :
    parcels.foldl
        (fun count parcel =>
          if parcel.target = target then count + parcel.content.size else count) count =
      count + (parcels.flatMap (Parcel.brings target)).length := by
  induction parcels generalizing count with
  | nil => rfl
  | cons parcel rest inductionHypothesis =>
      rw [List.foldl_cons, inductionHypothesis, List.flatMap_cons, List.length_append, Parcel.brings]
      split
      · rw [Nat.add_assoc]
        rfl
      · rw [List.length_nil, Nat.zero_add]

/-- The number of bytes that have been passed on is where the next ones go. -/
theorem passedTo_eq_length (target : Target) (parcels : List Parcel) :
    Outbox.passedTo target parcels =
      (parcels.reverse.flatMap (Parcel.brings target)).length := by
  rw [Outbox.passedTo, foldl_passed, Nat.zero_add, List.length_flatMap, List.length_flatMap,
    List.map_reverse, List.sum_reverse]

theorem Accepts.holds_changesOf {parcels : List Parcel} (apart : TargetsApart plan)
    (holds : Holds plan desk texts) (fresh : texts .trace = [])
    (accepts : Accepts plan (Outbox.changesOf parcels) desk after) :
    Holds plan after fun target =>
      texts target ++ parcels.reverse.flatMap (Parcel.brings target) := by
  induction parcels generalizing after with
  | nil =>
      rw [accepts_nil_iff.mp accepts]
      simpa using holds
  | cons parcel earlier inductionHypothesis =>
      -- The latest parcel comes first in the list, and its change comes last.
      obtain ⟨middle, before, last⟩ := accepts_append_iff.mp accepts
      have held := inductionHypothesis before
      rw [accepts_singleton_iff] at last
      have arrived := Writes.holds_parcel apart held ?_ last
      · simpa [List.append_assoc] using arrived
      · intro ofTrace
        rw [ofTrace, passedTo_eq_length, fresh, List.nil_append]

/-- When the rest of an outbox has been written too, all that it was given has arrived. -/
theorem Accepts.holds_changesAfter {outbox : Outbox} (apart : TargetsApart plan)
    (holds : Holds plan desk fun target =>
      texts target ++ outbox.sent.reverse.flatMap (Parcel.brings target))
    (fresh : texts .trace = []) (accepts : Accepts plan outbox.changesAfter desk after) :
    Holds plan after fun target => texts target ++ outbox.total target := by
  obtain ⟨middle, first, rest⟩ := accepts_cons_iff.mp accepts
  have last := accepts_singleton_iff.mp rest
  have logged := @Writes.holds_parcel plan desk middle _ ⟨.log, outbox.log.held⟩ _ apart holds nofun
    first
  have traced := @Writes.holds_parcel plan middle after _ ⟨.trace, outbox.trace.held⟩ _ apart logged
    ?_ last
  · intro target path named
    rw [traced target path named]
    cases target <;> simp [Parcel.brings, Outbox.total, Outbox.buffer]
  · intro _
    simp [passedTo_eq_length, fresh, Parcel.brings]

end

end RegisterMachine.Session
