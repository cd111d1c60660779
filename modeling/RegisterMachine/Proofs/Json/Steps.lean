import RegisterMachine.Json.Record

/-!
Contract: the walks over JSON text, one step at a time.

The walks are defined by recursion on the length of the text. Their equations
are stated here once for each thing that a text can go on with, so that whoever
knows what a text holds need not open them.

Owns: steps from entry to entry, of skipping and of reading lists and records.
Does not own: what a text holds (`Proofs.Snapshot`).
-/

namespace RegisterMachine.Json

open Mark

variable {containers outer : List Container} {container : Container} {first : Bool}
variable {text rest inside : Bytes}

/-! ## From entry to entry -/

/-- An entry of the container begins here. -/
structure Begins (container : Container) (first : UInt8) : Prop where
  notBlank : isBlank first = false
  notClosing : first ≠ container.closingMark

theorem skipBlanks_of_not_isBlank {byte : UInt8} (notBlank : isBlank byte = false) :
    skipBlanks (byte :: rest) = byte :: rest := by
  rw [skipBlanks, List.dropWhile_cons, notBlank]
  rfl

/-! ## Skipping -/

theorem skipFrom_done : skipFrom (.entry first) [] text = .ok text := by
  rw [skipFrom]

theorem skipFrom_blank (blanks : skipBlanks text = []) :
    skipFrom .value containers text = .error .cutOff := by
  rw [skipFrom]
  split
  · rfl
  · next found => rw [blanks] at found; contradiction

theorem skipFrom_scalar_error {byte : UInt8} (blanks : skipBlanks text = byte :: rest)
    (scalar : Container.ofOpening? byte = none) {failure : Failure}
    (failed : skipScalar (byte :: rest) = .error failure) :
    skipFrom .value containers text = .error failure := by
  rw [skipFrom]
  split
  · next none => rw [blanks] at none; contradiction
  · next found =>
      rw [blanks] at found
      cases found
      split
      · next opens => rw [scalar] at opens; contradiction
      · split
        · next other =>
            rw [failed] at other
            cases other
            rfl
        · next skipped => rw [failed] at skipped; contradiction

theorem skipFrom_scalar {byte : UInt8} (blanks : skipBlanks text = byte :: rest)
    (scalar : Container.ofOpening? byte = none) {after : Bytes}
    (skipped : skipScalar (byte :: rest) = .ok after) :
    skipFrom .value containers text = skipFrom (.entry false) containers after := by
  rw [skipFrom]
  split
  · next none => rw [blanks] at none; contradiction
  · next found =>
      rw [blanks] at found
      cases found
      split
      · next opens => rw [scalar] at opens; contradiction
      · split
        · next failed => rw [skipped] at failed; contradiction
        · next found =>
            rw [skipped] at found
            cases found
            rfl

theorem skipFrom_opening {byte : UInt8} (blanks : skipBlanks text = byte :: rest)
    (opens : Container.ofOpening? byte = some container) :
    skipFrom .value containers text = skipFrom (.entry true) (container :: containers) rest := by
  rw [skipFrom]
  split
  · next none => rw [blanks] at none; contradiction
  · next found =>
      rw [blanks] at found
      cases found
      split
      · next other =>
          rw [opens] at other
          cases other
          rfl
      · next scalar => rw [opens] at scalar; contradiction

theorem skipFrom_next_error {failure : Failure}
    (found : next container first text = .error failure) :
    skipFrom (.entry first) (container :: outer) text = .error failure := by
  rw [skipFrom]
  split
  · next failed =>
      rw [found] at failed
      cases failed
      rfl
  · next finished => rw [found] at finished; cases finished
  · next entered => rw [found] at entered; cases entered

theorem skipFrom_finish (found : next container first text = .ok (.finish rest)) :
    skipFrom (.entry first) (container :: outer) text = skipFrom (.entry false) outer rest := by
  conv => lhs; rw [skipFrom]
  split
  · next failed => rw [found] at failed; cases failed
  · next finished =>
      rw [found] at finished
      cases finished
      rfl
  · next entered => rw [found] at entered; cases entered

theorem skipFrom_entry {value : Bytes}
    (found : next container first text = .ok (.entry inside))
    (label : skipLabel container inside = .ok value) :
    skipFrom (.entry first) (container :: outer) text =
      skipFrom .value (container :: outer) value := by
  conv => lhs; rw [skipFrom]
  split
  · next failed => rw [found] at failed; cases failed
  · next finished => rw [found] at finished; cases finished
  · next entered =>
      rw [found] at entered
      cases entered
      split
      · next failed => rw [label] at failed; cases failed
      · next labelled =>
          rw [label] at labelled
          cases labelled
          rfl

/-! ## Reading -/

theorem push_append_toArray {A : Type} (done : Array A) (value : A) (more : List A) :
    done.push value ++ more.toArray = done ++ (value :: more).toArray := by
  rw [Array.push_eq_append, Array.append_assoc]
  exact congrArg (done ++ ·) (List.append_toArray [value] more)

theorem readElements_finish {done : Array Word}
    (found : next .list done.isEmpty text = .ok (.finish rest)) :
    readElements done text = .ok (done, rest) := by
  rw [readElements]
  split
  · next failed => rw [found] at failed; cases failed
  · next finished =>
      rw [found] at finished
      cases finished
      rfl
  · next entered => rw [found] at entered; cases entered

theorem readElements_entry {done : Array Word} {value : Word}
    (found : next .list done.isEmpty text = .ok (.entry inside))
    (read : readWord inside = .ok (value, rest)) :
    readElements done text = readElements (done.push value) rest := by
  conv => lhs; rw [readElements]
  split
  · next failed => rw [found] at failed; cases failed
  · next finished => rw [found] at finished; cases finished
  · next entered =>
      rw [found] at entered
      cases entered
      split
      · next failed => rw [read] at failed; cases failed
      · next word =>
          rw [read] at word
          cases word
          rfl

/-- A list fails with its first element that is no word. -/
theorem toOption_readElements_entry {done : Array Word}
    (found : next .list done.isEmpty text = .ok (.entry inside)) :
    (readElements done text).toOption =
      (readWord inside).toOption.bind fun read =>
        (readElements (done.push read.1) read.2).toOption := by
  cases read : readWord inside with
  | ok pair =>
      rw [readElements_entry found read]
      rfl
  | error failure =>
      rw [readElements]
      split
      · rfl
      · next finished => rw [found] at finished; cases finished
      · next entered =>
          rw [found] at entered
          cases entered
          split
          · rfl
          · next word => rw [read] at word; cases word

section
variable {A : Type} {gatherer : Gatherer A} {gathered : A}

theorem readMembers_finish (found : next .record first text = .ok (.finish rest)) :
    readMembers gatherer gathered first text = .ok (gathered, rest) := by
  rw [readMembers]
  split
  · next failed => rw [found] at failed; cases failed
  · next finished =>
      rw [found] at finished
      cases finished
      rfl
  · next entered => rw [found] at entered; cases entered

theorem readMembers_entry {key : String} {label : Bytes} {more : A}
    (found : next .record first text = .ok (.entry inside))
    (labelled : readKey inside = .ok (key, label))
    (gathers : gatherer.gather gathered key label = .ok (more, rest)) :
    readMembers gatherer gathered first text = readMembers gatherer more false rest := by
  conv => lhs; rw [readMembers]
  split
  · next failed => rw [found] at failed; cases failed
  · next finished => rw [found] at finished; cases finished
  · next entered =>
      rw [found] at entered
      cases entered
      split
      · next failed => rw [labelled] at failed; cases failed
      · next keyed =>
          rw [labelled] at keyed
          cases keyed
          split
          · next failed => rw [gathers] at failed; cases failed
          · next value =>
              rw [gathers] at value
              cases value
              rfl

theorem readMembers_next_error {failure : Failure}
    (found : next .record first text = .error failure) :
    readMembers gatherer gathered first text = .error failure := by
  rw [readMembers]
  split
  · next failed =>
      rw [found] at failed
      cases failed
      rfl
  · next finished => rw [found] at finished; cases finished
  · next entered => rw [found] at entered; cases entered

theorem readMembers_key_error {failure : Failure}
    (found : next .record first text = .ok (.entry inside))
    (unlabelled : readKey inside = .error failure) :
    readMembers gatherer gathered first text = .error failure := by
  rw [readMembers]
  split
  · next failed => rw [found] at failed; cases failed
  · next finished => rw [found] at finished; cases finished
  · next entered =>
      rw [found] at entered
      cases entered
      split
      · next failed =>
          rw [unlabelled] at failed
          cases failed
          rfl
      · next keyed => rw [unlabelled] at keyed; cases keyed

theorem readMembers_gather_error {key : String} {label : Bytes} {failure : Failure}
    (found : next .record first text = .ok (.entry inside))
    (labelled : readKey inside = .ok (key, label))
    (fails : gatherer.gather gathered key label = .error failure) :
    readMembers gatherer gathered first text = .error failure := by
  rw [readMembers]
  split
  · next failed => rw [found] at failed; cases failed
  · next finished => rw [found] at finished; cases finished
  · next entered =>
      rw [found] at entered
      cases entered
      split
      · next failed => rw [labelled] at failed; cases failed
      · next keyed =>
          rw [labelled] at keyed
          cases keyed
          split
          · next failed =>
              rw [fails] at failed
              cases failed
              rfl
          · next value => rw [fails] at value; cases value

/-- A record fails with its first member that cannot be gathered. -/
theorem toOption_readMembers_entry {key : String} {label : Bytes}
    (found : next .record first text = .ok (.entry inside))
    (labelled : readKey inside = .ok (key, label)) :
    (readMembers gatherer gathered first text).toOption =
      (gatherer.gather gathered key label).toOption.bind fun gathers =>
        (readMembers gatherer gathers.1 false gathers.2).toOption := by
  cases gathers : gatherer.gather gathered key label with
  | ok pair =>
      rw [readMembers_entry found labelled gathers]
      rfl
  | error failure =>
      rw [readMembers_gather_error found labelled gathers]
      rfl

end

end RegisterMachine.Json
