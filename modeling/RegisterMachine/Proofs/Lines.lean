import Mathlib.Logic.Relation
import RegisterMachine.Proofs.CodeUnits
import RegisterMachine.Text.Lines

/-!
Contract: the lines of a text, and the codes that they are queued as.

A text is a number of lines with their ends and a last line without one, so
what is true of all texts is proved line by line. Wherever a text is cut, the
lines before the cut and those after it only have the line in common in which
the cut is. So a change of a line end is a matter of this one line.

Owns: `Splits`, the grammar of lines, and the changes that queued codes do not
show.
Does not own: the codes of characters (`Proofs.CodeUnits`).
-/

namespace RegisterMachine.Text

/-- The text has these lines. A line ends with a line feed or with a carriage return and a line
feed, and a line without any end is the last one. -/
inductive Splits : List Char → List (List Char) → Prop where
  | nothing : Splits [] []
  | last {line : List Char} (nonempty : line ≠ []) (unbroken : '\n' ∉ line) : Splits line [line]
  | feed {line rest : List Char} {lines : List (List Char)} (unbroken : '\n' ∉ line)
      (bare : line.getLast? ≠ some '\r') (others : Splits rest lines) :
      Splits (line ++ '\n' :: rest) (line :: lines)
  | returnFeed {line rest : List Char} {lines : List (List Char)} (unbroken : '\n' ∉ line)
      (others : Splits rest lines) : Splits (line ++ '\r' :: '\n' :: rest) (line :: lines)

/-- The lines of a text as characters. -/
def linesOf (text : List Char) : List (List Char) := (linesFrom [] #[] text).toList

/-! ## Line by line -/

theorem linesFrom_feed (line : List Char) (done : Array (List Char)) (rest : List Char) :
    linesFrom line done ('\n' :: rest) = linesFrom [] (done.push (dropReturn line.reverse)) rest :=
  rfl

theorem linesFrom_other {character : Char} (other : character ≠ '\n') (line : List Char)
    (done : Array (List Char)) (rest : List Char) :
    linesFrom line done (character :: rest) = linesFrom (character :: line) done rest := by
  rw [linesFrom]
  exact other

/-- The lines that are done come first. -/
theorem toList_linesFrom (line : List Char) (done : Array (List Char)) (text : List Char) :
    (linesFrom line done text).toList = done.toList ++ (linesFrom line #[] text).toList := by
  induction text generalizing line done with
  | nil =>
      unfold linesFrom
      split <;> simp
  | cons character rest inductionHypothesis =>
      by_cases isFeed : character = '\n'
      · subst isFeed
        rw [linesFrom_feed, linesFrom_feed, inductionHypothesis,
          inductionHypothesis [] (Array.push #[] _)]
        simp
      · rw [linesFrom_other isFeed, linesFrom_other isFeed, inductionHypothesis]

theorem linesFrom_append {begun : List Char} (unbroken : '\n' ∉ begun) (line : List Char)
    (done : Array (List Char)) (rest : List Char) :
    linesFrom line done (begun ++ rest) = linesFrom (begun.reverse ++ line) done rest := by
  induction begun generalizing line with
  | nil => rfl
  | cons character later inductionHypothesis =>
      have other : character ≠ '\n' := fun isFeed => unbroken (isFeed ▸ List.mem_cons_self)
      have unbrokenLater : '\n' ∉ later := fun member => unbroken (List.mem_cons_of_mem _ member)
      rw [List.cons_append, linesFrom_other other, inductionHypothesis unbrokenLater,
        List.reverse_cons, List.append_assoc]
      rfl

theorem linesOf_last {line : List Char} (unbroken : '\n' ∉ line) (nonempty : line ≠ []) :
    linesOf line = [line] := by
  have begun := linesFrom_append unbroken [] #[] []
  rw [List.append_nil, List.append_nil] at begun
  rw [linesOf, begun, linesFrom, List.isEmpty_reverse, List.reverse_reverse,
    if_neg (by rwa [List.isEmpty_iff])]
  rfl

theorem linesOf_feed {line : List Char} (unbroken : '\n' ∉ line) (rest : List Char) :
    linesOf (line ++ '\n' :: rest) = dropReturn line :: linesOf rest := by
  rw [linesOf, linesFrom_append unbroken, linesFrom_feed, toList_linesFrom, List.append_nil,
    List.reverse_reverse]
  rfl

/-- A text is a line without line feed, or such a line, a line feed and another text. -/
@[elab_as_elim]
theorem inductionOnLines {motive : List Char → Prop}
    (last : ∀ line, '\n' ∉ line → motive line)
    (feed : ∀ line rest, '\n' ∉ line → motive rest → motive (line ++ '\n' :: rest))
    (text : List Char) : motive text := by
  induction measured : text.length using Nat.strongRecOn generalizing text with
  | ind length inductionHypothesis =>
      by_cases broken : '\n' ∈ text
      · obtain ⟨line, rest, rfl, unbroken⟩ := List.eq_append_cons_of_mem broken
        rw [List.length_append, List.length_cons] at measured
        exact feed line rest unbroken (inductionHypothesis rest.length (by omega) rest rfl)
      · exact last text broken

/-! ## The grammar -/

theorem dropReturn_of_bare {line : List Char} (bare : line.getLast? ≠ some '\r') :
    dropReturn line = line := if_neg bare

theorem dropReturn_concat (line : List Char) : dropReturn (line ++ ['\r']) = line := by
  rw [dropReturn, if_pos List.getLast?_concat, List.dropLast_concat]

theorem linesOf_returnFeed {line : List Char} (unbroken : '\n' ∉ line) (rest : List Char) :
    linesOf (line ++ '\r' :: '\n' :: rest) = line :: linesOf rest := by
  have unbrokenToo : '\n' ∉ line ++ ['\r'] := by simp [unbroken]
  have split := linesOf_feed unbrokenToo rest
  rwa [List.append_assoc, dropReturn_concat] at split

theorem splits_linesOf (text : List Char) : Splits text (linesOf text) := by
  induction text using inductionOnLines with
  | last line unbroken =>
      by_cases empty : line = []
      · subst empty
        exact .nothing
      · rw [linesOf_last unbroken empty]
        exact .last empty unbroken
  | feed line rest unbroken inductionHypothesis =>
      rw [linesOf_feed unbroken]
      by_cases returned : line.getLast? = some '\r'
      · obtain ⟨kept, rfl⟩ := List.getLast?_eq_some_iff.mp returned
        rw [dropReturn_concat, List.append_assoc]
        exact .returnFeed (fun member => unbroken (List.mem_append_left _ member))
          inductionHypothesis
      · rw [dropReturn_of_bare returned]
        exact .feed unbroken returned inductionHypothesis

/-- Every text has exactly one list of lines. -/
theorem splits_iff {text : List Char} {lines : List (List Char)} :
    Splits text lines ↔ lines = linesOf text := by
  constructor
  · intro splits
    induction splits with
    | nothing => rfl
    | last nonempty unbroken => rw [linesOf_last unbroken nonempty]
    | feed unbroken bare _ inductionHypothesis =>
        rw [linesOf_feed unbroken, dropReturn_of_bare bare, inductionHypothesis]
    | returnFeed unbroken _ inductionHypothesis =>
        rw [linesOf_returnFeed unbroken, inductionHypothesis]
  · rintro rfl
    exact splits_linesOf text

theorem unbroken_of_splits {text : List Char} {lines : List (List Char)}
    (splits : Splits text lines) : ∀ line ∈ lines, '\n' ∉ line := by
  induction splits with
  | nothing => nofun
  | last _ unbroken => simpa using unbroken
  | feed unbroken _ _ inductionHypothesis | returnFeed unbroken _ inductionHypothesis =>
      exact List.forall_mem_cons.mpr ⟨unbroken, inductionHypothesis⟩

/-! ## Queued lines -/

/-- The codes that a line of a file is queued as: none for an empty line, else those of the line
without the carriage returns at its end, and a line feed. -/
def queuedLine (line : List Char) : List Word :=
  if line = [] then [] else units (line.rdropWhile (· = '\r')) ++ [lineFeed]

/-- The codes that the lines of a text are queued as. -/
def queuedLines (text : List Char) : List Word := (linesOf text).flatMap queuedLine

theorem queuedLines_last {line : List Char} (unbroken : '\n' ∉ line) :
    queuedLines line = queuedLine line := by
  by_cases empty : line = []
  · rw [empty]
    rfl
  · rw [queuedLines, linesOf_last unbroken empty, List.flatMap_singleton]

theorem queuedLines_feed {line : List Char} (unbroken : '\n' ∉ line) (rest : List Char) :
    queuedLines (line ++ '\n' :: rest) = queuedLine (dropReturn line) ++ queuedLines rest := by
  rw [queuedLines, linesOf_feed unbroken, List.flatMap_cons, queuedLines]

theorem trimLineEnds_of_unbroken {line : List Char} (unbroken : '\n' ∉ line) :
    trimLineEnds line = line.rdropWhile (· = '\r') := by
  show line.rdropWhile isLineEnd = _
  induction line using List.reverseRecOn with
  | nil => rfl
  | append_singleton earlier character inductionHypothesis =>
      have other : character ≠ '\n' := fun isFeed => unbroken (by simp [isFeed])
      have unbrokenEarlier : '\n' ∉ earlier := fun member =>
        unbroken (List.mem_append_left _ member)
      rw [List.rdropWhile_concat, List.rdropWhile_concat, inductionHypothesis unbrokenEarlier]
      simp [isLineEnd, other]

theorem lineCodes_ofList {line : List Char} (unbroken : '\n' ∉ line) :
    lineCodes (.ofList line) = units (line.rdropWhile (· = '\r')) ++ [lineFeed] := by
  rw [lineCodes, String.toList_ofList, trimLineEnds_of_unbroken unbroken]

theorem flatMap_lineCodes_filter {lines : List (List Char)}
    (unbroken : ∀ line ∈ lines, '\n' ∉ line) :
    ((lines.map String.ofList).filter fun line => !line.isEmpty).flatMap lineCodes =
      lines.flatMap queuedLine := by
  induction lines with
  | nil => rfl
  | cons line later inductionHypothesis =>
      obtain ⟨unbrokenLine, unbrokenLater⟩ := List.forall_mem_cons.mp unbroken
      rw [List.map_cons, List.filter_cons, List.flatMap_cons,
        ← inductionHypothesis unbrokenLater, queuedLine]
      by_cases empty : line = []
      · simp [empty]
      · simp [empty, lineCodes_ofList unbrokenLine]

/-! ## What queued codes do not show -/

/-- A line feed, or a carriage return and a line feed. -/
def IsLineEnd (ending : List Char) : Prop := ending = ['\n'] ∨ ending = ['\r', '\n']

theorem queuedLines_ending {line ending : List Char} (unbroken : '\n' ∉ line)
    (bare : line.getLast? ≠ some '\r') (isEnd : IsLineEnd ending) (after : List Char) :
    queuedLines (line ++ (ending ++ after)) = queuedLine line ++ queuedLines after := by
  rcases isEnd with rfl | rfl
  · have queued := queuedLines_feed unbroken after
    rwa [dropReturn_of_bare bare] at queued
  · show (linesOf (line ++ '\r' :: '\n' :: after)).flatMap queuedLine = _
    rw [linesOf_returnFeed unbroken, List.flatMap_cons, queuedLines]

/-- A change of a line end, an empty line, or the end of the last line. -/
inductive LineEdit : List Char → List Char → Prop where
  /-- A carriage return is put before a line feed that none goes before. -/
  | returns {before : List Char} (bare : before.getLast? ≠ some '\r') (after : List Char) :
      LineEdit (before ++ '\n' :: after) (before ++ '\r' :: '\n' :: after)
  /-- An empty line is put where a line begins. -/
  | insertsEmpty {before ending : List Char} (begins : ∀ last ∈ before.getLast?, last = '\n')
      (isEnd : IsLineEnd ending) (after : List Char) :
      LineEdit (before ++ after) (before ++ ending ++ after)
  /-- The last line is ended. -/
  | endsLast {text ending : List Char} (bare : text.getLast? ≠ some '\r')
      (isEnd : IsLineEnd ending) : LineEdit text (text ++ ending)

/-- The texts only differ in their line ends and in empty lines. -/
def Relaid : List Char → List Char → Prop := Relation.EqvGen LineEdit

/-- A text with carriage returns before its line feeds. -/
def withReturns (text : List Char) : List Char :=
  text.flatMap fun character => if character = '\n' then ['\r', '\n'] else [character]

/-- Where a text is cut, it is only in one line. -/
theorem exists_cut_line (before : List Char) :
    ∃ start line, before = start ++ line ∧ '\n' ∉ line ∧ ∀ after,
      queuedLines (before ++ after) = queuedLines start ++ queuedLines (line ++ after) := by
  induction before using inductionOnLines with
  | last line unbroken => exact ⟨[], line, rfl, unbroken, fun _ => rfl⟩
  | feed first rest unbroken inductionHypothesis =>
      obtain ⟨start, line, rfl, unbrokenLine, queued⟩ := inductionHypothesis
      refine ⟨first ++ '\n' :: start, line, by simp, unbrokenLine, fun after => ?_⟩
      rw [List.append_assoc, List.cons_append, queuedLines_feed unbroken, queued,
        queuedLines_feed unbroken, List.append_assoc]

theorem bare_of_append {start line : List Char} (bare : (start ++ line).getLast? ≠ some '\r') :
    line.getLast? ≠ some '\r' := by
  intro returned
  exact bare (by rw [List.getLast?_append, returned, Option.some_or])

theorem eq_nil_of_begins {start line : List Char} (unbroken : '\n' ∉ line)
    (begins : ∀ last ∈ (start ++ line).getLast?, last = '\n') : line = [] := by
  rw [← List.getLast?_eq_none_iff]
  cases isLast : line.getLast? with
  | none => rfl
  | some last =>
      have isFeed := begins last (by rw [List.getLast?_append, isLast, Option.some_or]; rfl)
      exact absurd (isFeed ▸ List.mem_of_getLast? isLast) unbroken

/-- A line end ends all that is before it. -/
theorem queuedLines_ended {before ending : List Char} (bare : before.getLast? ≠ some '\r')
    (isEnd : IsLineEnd ending) (after : List Char) :
    queuedLines (before ++ (ending ++ after)) = queuedLines before ++ queuedLines after := by
  obtain ⟨start, line, rfl, unbroken, queued⟩ := exists_cut_line before
  have uncut := queued []
  rw [List.append_nil, List.append_nil, queuedLines_last unbroken] at uncut
  rw [queued, queuedLines_ending unbroken (bare_of_append bare) isEnd, uncut, List.append_assoc]

/-- What begins with a new line is queued by itself. -/
theorem queuedLines_begun {before : List Char} (begins : ∀ last ∈ before.getLast?, last = '\n')
    (after : List Char) :
    queuedLines (before ++ after) = queuedLines before ++ queuedLines after := by
  obtain ⟨start, line, rfl, unbroken, queued⟩ := exists_cut_line before
  have noLine := eq_nil_of_begins unbroken begins
  subst noLine
  rw [queued, List.append_nil, List.nil_append]

theorem queuedLines_eq_of_edit {text other : List Char} (edit : LineEdit text other) :
    queuedLines text = queuedLines other := by
  cases edit with
  | returns bare after =>
      exact (queuedLines_ended bare (.inl rfl) after).trans
        (queuedLines_ended bare (.inr rfl) after).symm
  | @insertsEmpty before ending begins isEnd after =>
      have bareNothing : [].getLast? ≠ some '\r' := nofun
      have empty : queuedLines (ending ++ after) = queuedLines after :=
        queuedLines_ended bareNothing isEnd after
      rw [List.append_assoc, queuedLines_begun begins, queuedLines_begun begins, empty]
  | endsLast bare isEnd =>
      have ended := queuedLines_ended bare isEnd []
      rw [List.append_nil] at ended
      exact (ended.trans (List.append_nil _)).symm

theorem queuedLines_eq_of_relaid {text other : List Char} (relaid : Relaid text other) :
    queuedLines text = queuedLines other := by
  induction relaid with
  | rel _ _ edit => exact queuedLines_eq_of_edit edit
  | refl _ => rfl
  | symm _ _ _ inductionHypothesis => exact inductionHypothesis.symm
  | trans _ _ _ _ _ first later => exact first.trans later

/-- The line feeds are changed from left to right, so none has a carriage return before it. -/
theorem relaid_withReturns {text : List Char} (noReturn : '\r' ∉ text) :
    Relaid text (withReturns text) := by
  have general (done : List Char) (bare : done.getLast? ≠ some '\r') :
      Relaid (done ++ text) (done ++ withReturns text) := by
    induction text generalizing done with
    | nil => exact .refl _
    | cons character rest inductionHypothesis =>
        have noReturnLater : '\r' ∉ rest := fun member =>
          noReturn (List.mem_cons_of_mem _ member)
        rw [withReturns, List.flatMap_cons, ← withReturns]
        split
        · next isFeed =>
            subst isFeed
            have later := inductionHypothesis noReturnLater (done ++ ['\r', '\n']) (by simp)
            rw [List.append_assoc, List.append_assoc] at later
            exact .trans _ _ _ (.rel _ _ (.returns bare rest)) later
        · have isBare : character ≠ '\r' := fun isReturn => noReturn (by simp [isReturn])
          have later := inductionHypothesis noReturnLater (done ++ [character]) (by simp [isBare])
          rwa [List.append_assoc, List.append_assoc] at later
  exact general [] nofun

end RegisterMachine.Text
