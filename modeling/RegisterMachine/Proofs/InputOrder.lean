import RegisterMachine.Proofs.CodeUnits

/-!
Contract: input is read as it was queued, each code once and in order.

A journal holds the uses that have been made of a queue, with the codes that the
reads have returned. Since the queue was last cleared, the codes that have been
returned and those that still wait make up what has been pushed. Every use but
clearing keeps this balance, and clearing begins a new one.

Owns: `InputQueue.Use`, journals, `InputQueue.Delivers`.
Does not own: the code units of a line (`Proofs.CodeUnits`), and what a session
queues (`Proofs.Session.QueuedInput`).
-/

namespace RegisterMachine.InputQueue

/-- What can be done with a queue. -/
inductive Use where
  | line (text : String)
  | push (codes : List Word)
  | read
  | clear
deriving DecidableEq, Repr

/-- A queue after a use, with the code that a read returns. -/
def make (queue : InputQueue) : Use → Option Word × InputQueue
  | .line text => (none, queue.pushLine text)
  | .push codes => (none, queue.pushCodes codes)
  | .read =>
      match queue.take? with
      | none => (none, queue)
      | some (code, rest) => (some code, rest)
  | .clear => (none, queue.clear)

/-- A queue after uses. -/
def makeAll (queue : InputQueue) (uses : List Use) : InputQueue :=
  uses.foldl (fun queue use => (queue.make use).2) queue

/-! ## Journals -/

/-- A use that has been made of a queue, with the code that it returned. -/
structure Entry where
  use : Use
  code? : Option Word
deriving DecidableEq, Repr

def journal (queue : InputQueue) : List Use → List Entry
  | [] => []
  | use :: later => ⟨use, (queue.make use).1⟩ :: (queue.make use).2.journal later

/-- What a use adds to a queue. A line counts without the ends that it has, and with one line
feed. -/
def Use.pushed : Use → List Word
  | .line text => Text.units (Text.kept text) ++ [10]
  | .push codes => codes
  | .read | .clear => []

/-- The codes that have been pushed. -/
def pushed (entries : List Entry) : List Word := entries.flatMap fun entry => entry.use.pushed

/-- The codes that have been returned. -/
def returned (entries : List Entry) : List Word := entries.filterMap Entry.code?

/-- The entries after the last clearing, or all if there is none. -/
def sinceClear (entries : List Entry) : List Entry :=
  entries.rtakeWhile fun entry => entry.use ≠ .clear

/-- The queue has delivered, and still holds, what these entries have pushed. -/
structure Delivers (queue : InputQueue) (entries : List Entry) : Prop where
  /-- Nothing is lost, repeated or moved. -/
  balance : returned entries ++ queue.pending = pushed entries
  /-- The next read returns the first code that has not been returned. -/
  next : (queue.make .read).1 = (pushed entries)[(returned entries).length]?
  exhausted : (queue.make .read).1 = none ↔ queue.pending = []
  size : queue.size = queue.pending.length
  isEmpty : queue.isEmpty = true ↔ queue.pending = []

variable {queue : InputQueue} {entries : List Entry} {use : Use}

theorem journal_concat (queue : InputQueue) (uses : List Use) (use : Use) :
    queue.journal (uses ++ [use]) =
      queue.journal uses ++ [⟨use, ((queue.makeAll uses).make use).1⟩] := by
  induction uses generalizing queue with
  | nil => rfl
  | cons first later inductionHypothesis =>
      rw [List.cons_append, journal, inductionHypothesis]
      rfl

theorem makeAll_concat (queue : InputQueue) (uses : List Use) (use : Use) :
    queue.makeAll (uses ++ [use]) = ((queue.makeAll uses).make use).2 :=
  List.foldl_concat _ queue use uses

theorem returned_concat (entries : List Entry) (entry : Entry) :
    returned (entries ++ [entry]) = returned entries ++ entry.code?.toList := by
  rw [returned, List.filterMap_append, returned]
  cases code : entry.code? with
  | none => rw [List.filterMap_cons_none code, Option.toList_none, List.filterMap_nil]
  | some _ => rw [List.filterMap_cons_some code, Option.toList_some, List.filterMap_nil]

theorem pushed_concat (entries : List Entry) (entry : Entry) :
    pushed (entries ++ [entry]) = pushed entries ++ entry.use.pushed := by
  rw [pushed, List.flatMap_append, List.flatMap_singleton, pushed]

/-! ## The balance -/

/-- What a use returns comes first, and what it pushes last. -/
theorem toList_make_append (queue : InputQueue) (kept : use ≠ .clear) :
    (queue.make use).1.toList ++ (queue.make use).2.pending = queue.pending ++ use.pushed := by
  cases use with
  | line text =>
      show queue.pending ++ Text.lineCodes text = _
      rw [Text.lineCodes, Text.trimLineEnds_toList]
      rfl
  | push codes => rfl
  | read =>
      obtain ⟨pending⟩ := queue
      cases pending with
      | nil => rfl
      | cons code rest => exact (List.append_nil (code :: rest)).symm
  | clear => contradiction

theorem balance_make (balance : returned entries ++ queue.pending = pushed entries)
    (kept : use ≠ .clear) :
    returned (entries ++ [⟨use, (queue.make use).1⟩]) ++ (queue.make use).2.pending =
      pushed (entries ++ [⟨use, (queue.make use).1⟩]) := by
  rw [returned_concat, pushed_concat, List.append_assoc, toList_make_append queue kept,
    ← List.append_assoc, balance]

theorem balance_makeAll (uses : List Use) :
    returned (sinceClear (empty.journal uses)) ++ (empty.makeAll uses).pending =
      pushed (sinceClear (empty.journal uses)) := by
  -- From the last use backwards, as the last clearing is found.
  induction uses using List.reverseRecOn with
  | nil => rfl
  | append_singleton uses use inductionHypothesis =>
      rw [journal_concat, makeAll_concat]
      by_cases cleared : use = .clear
      · rw [cleared, sinceClear, List.rtakeWhile_concat_neg _ _ _ (by simp)]
        rfl
      · rw [sinceClear, List.rtakeWhile_concat_pos _ _ _ (by simpa using cleared), ← sinceClear]
        exact balance_make inductionHypothesis cleared

theorem make_read (queue : InputQueue) : (queue.make .read).1 = queue.pending.head? := by
  obtain ⟨pending⟩ := queue
  cases pending <;> rfl

/-- Whatever has been done with a queue that was empty at first, the codes that have been read since
it was last cleared, and after them those that still wait, are the codes that have been pushed since
then. -/
theorem reads_what_was_pushed (uses : List Use) :
    (empty.makeAll uses).Delivers (sinceClear (empty.journal uses)) where
  balance := balance_makeAll uses
  next := by
    rw [← balance_makeAll, List.getElem?_append_right (Nat.le_refl _), Nat.sub_self, make_read,
      List.head?_eq_getElem?]
  exhausted := by rw [make_read, List.head?_eq_none_iff]
  size := rfl
  isEmpty := List.isEmpty_iff

/-- Two lines around a clearing, and a read too many. -/
example :
    empty.journal [.line "a", .clear, .line "b\r\n", .read, .push [7], .read, .read, .read] =
      [⟨.line "a", none⟩, ⟨.clear, none⟩, ⟨.line "b\r\n", none⟩, ⟨.read, some 98⟩,
        ⟨.push [7], none⟩, ⟨.read, some 10⟩, ⟨.read, some 7⟩, ⟨.read, none⟩] := by
  decide

end RegisterMachine.InputQueue
