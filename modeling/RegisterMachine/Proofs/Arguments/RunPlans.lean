import Mathlib.Data.List.Induction
import RegisterMachine.CommandLine
import RegisterMachine.Proofs.Arguments.Groups
import RegisterMachine.Proofs.Numerals

/-!
Contract: the arguments of a run describe its plan.

A run needs exactly one positional argument, which is its program. What its
settings say is told by their values in order of appearance, and a switch is
thrown by appearing at all; so the plan stays the same when groups with
different flags change places. Every plan that can be run is described by some
arguments. If arguments describe none, help is shown exactly if it was asked for
before the first fault.

Owns: `described`, the plans of runs.
Does not own: the division of arguments into groups (`Proofs.Arguments.Groups`).
-/

namespace RegisterMachine.Arguments

open Session

/-! ## What groups say -/

/-- The value that the group gives to a setting. -/
def Group.valueOf? (which : Setting) : Group → Option String
  | .setting other value => if other = which then some value else none
  | _ => none

def Group.positional? : Group → Option String
  | .positional argument => some argument
  | _ => none

/-- The values that groups give to a setting, in order of appearance. -/
def valuesOf (which : Setting) (groups : List Group) : List String :=
  groups.filterMap (Group.valueOf? which)

def positionals (groups : List Group) : List String := groups.filterMap Group.positional?

/-- The value of a setting is an address or a number, if it has to be one. -/
def Setting.Accepts (value : String) : Setting → Prop
  | .breakpoint => ∃ address, Numeral.readAddress value = .ok address
  | .maxSteps => ∃ count, Numeral.readNumber value = .ok count
  | _ => True

/-- The value in the group can be read, if there is one. -/
def Group.Readable : Group → Prop
  | .setting which value => which.Accepts value
  | _ => True

/-- The run has all of these groups and can read the values in them, and they name no more than one
program. -/
structure Acceptable (groups : List Group) : Prop where
  admits : ∀ group ∈ groups, runGrammar.Admits group
  readable : ∀ group ∈ groups, group.Readable
  onlyProgram : (positionals groups).length ≤ 1

/-- The groups of a run that name its program. -/
structure DescribeRun (groups : List Group) : Prop where
  admits : ∀ group ∈ groups, runGrammar.Admits group
  readable : ∀ group ∈ groups, group.Readable
  oneProgram : (positionals groups).length = 1

/-- The address that a text writes, if it writes one. -/
def addressOf? (text : String) : Option Nat := (Numeral.readAddress text).toOption

/-- The number that a text writes, if it writes one. -/
def numberOf? (text : String) : Option Nat := (Numeral.readNumber text).toOption

/-- The plan that groups describe: the texts to send and the breakpoints in order of appearance, the
last value of every other setting, and the defaults where nothing is said. -/
def described (groups : List Group) : Plan where
  program := (positionals groups).head?.getD ""
  state := (valuesOf .state groups).getLast?
  input := (valuesOf .input groups).getLast?
  send := valuesOf .send groups
  readInput := decide (.switch .readInput ∈ groups)
  breakpoints := (valuesOf .breakpoint groups).filterMap addressOf?
  continueFirst := decide (.switch .continueFirst ∈ groups)
  maxSteps := (valuesOf .maxSteps groups).getLast?.bind numberOf?
  trace := (valuesOf .trace groups).getLast?
  log := (valuesOf .log groups).getLast?
  save := (valuesOf .save groups).getLast?
  disableTrace := decide (.switch .disableTrace ∈ groups)

/-- What has been read after groups. -/
def draftOf (groups : List Group) : Draft Plan :=
  ⟨(positionals groups).head?, { described groups with program := "" }⟩

/-! ## Applying groups -/

section
variable (groups : List Group)

theorem valuesOf_append (which : Setting) (group : Group) :
    valuesOf which (groups ++ [group]) =
      valuesOf which groups ++ (group.valueOf? which).toList := by
  rw [valuesOf, List.filterMap_append]
  cases found : group.valueOf? which <;> simp [valuesOf, found]

theorem positionals_append (group : Group) :
    positionals (groups ++ [group]) = positionals groups ++ group.positional?.toList := by
  rw [positionals, List.filterMap_append]
  cases found : group.positional? <;> simp [positionals, found]

theorem applyToRun_switch {which : Switch} (admits : runGrammar.Admits (.switch which)) :
    applyToRun (draftOf groups) (.switch which) = .ok (draftOf (groups ++ [.switch which])) := by
  cases which with
  | includeData =>
      have absent : Switch.includeData ∉ runGrammar.switches := by decide
      exact absurd admits absent
  | readInput | continueFirst | disableTrace =>
      simp [applyToRun, setSwitch, draftOf, described, valuesOf_append, positionals_append,
        Group.valueOf?, Group.positional?]

theorem applyToRun_setting {which : Setting} {value : String} (accepts : which.Accepts value) :
    applyToRun (draftOf groups) (.setting which value) =
      .ok (draftOf (groups ++ [.setting which value])) := by
  cases which with
  | breakpoint =>
      obtain ⟨address, found⟩ := accepts
      have isAddress : addressOf? value = some address := by rw [addressOf?, found]; rfl
      simp [applyToRun, setOption, readAddress, found, isAddress, Except.map, draftOf, described,
        valuesOf_append, positionals_append, Group.valueOf?, Group.positional?]
  | maxSteps =>
      obtain ⟨count, found⟩ := accepts
      have isNumber : numberOf? value = some count := by rw [numberOf?, found]; rfl
      simp [applyToRun, setOption, readNumber, found, isNumber, Except.map, draftOf, described,
        valuesOf_append, positionals_append, Group.valueOf?, Group.positional?]
  | state | input | send | trace | log | save =>
      simp [applyToRun, setOption, Except.map, draftOf, described, valuesOf_append,
        positionals_append, Group.valueOf?, Group.positional?]

theorem applyToRun_positional (argument : String) (unnamed : positionals groups = []) :
    applyToRun (draftOf groups) (.positional argument) =
      .ok (draftOf (groups ++ [.positional argument])) := by
  simp [applyToRun, Draft.takeProgram, draftOf, described, valuesOf_append, positionals_append,
    Group.valueOf?, Group.positional?, unnamed]

end

variable {groups : List Group} {group : Group} {draft last : Draft Plan}

theorem readable_of_applyToRun (applied : applyToRun draft group = .ok last) : group.Readable := by
  cases group with
  | switch _ | positional _ => exact trivial
  | setting which value =>
      cases which with
      | breakpoint =>
          cases found : Numeral.readAddress value with
          | ok address => exact ⟨address, found⟩
          | error invalid =>
              rw [applyToRun, setOption, readAddress, found] at applied
              cases applied
      | maxSteps =>
          cases found : Numeral.readNumber value with
          | ok count => exact ⟨count, found⟩
          | error invalid =>
              rw [applyToRun, setOption, readNumber, found] at applied
              cases applied
      | state | input | send | trace | log | save => exact trivial

theorem onlyProgram_of_applyToRun (before : (positionals groups).length ≤ 1)
    (applied : applyToRun (draftOf groups) group = .ok last) :
    (positionals (groups ++ [group])).length ≤ 1 := by
  rw [positionals_append]
  cases group with
  | switch _ | setting _ _ => exact (List.append_nil (positionals groups)).symm ▸ before
  | positional argument =>
      cases named : positionals groups with
      | nil => exact Nat.le_refl 1
      | cons program _ =>
          rw [applyToRun, Draft.takeProgram, draftOf, named] at applied
          cases applied

theorem Acceptable.init (acceptable : Acceptable (groups ++ [group])) : Acceptable groups where
  admits other member := acceptable.admits other (List.mem_append_left _ member)
  readable other member := acceptable.readable other (List.mem_append_left _ member)
  onlyProgram := by
    have onlyProgram := acceptable.onlyProgram
    rw [positionals_append, List.length_append] at onlyProgram
    omega

/-- Acceptable groups are all applied. -/
theorem applyToRun_of_acceptable (acceptable : Acceptable (groups ++ [group])) :
    applyToRun (draftOf groups) group = .ok (draftOf (groups ++ [group])) := by
  have member : group ∈ groups ++ [group] := List.mem_append_right _ (List.mem_singleton_self group)
  have admits := acceptable.admits group member
  have readable := acceptable.readable group member
  cases group with
  | switch which => exact applyToRun_switch groups admits
  | setting which value => exact applyToRun_setting groups readable
  | positional argument =>
      have onlyProgram := acceptable.onlyProgram
      rw [positionals_append, List.length_append] at onlyProgram
      refine applyToRun_positional groups argument (List.eq_nil_of_length_eq_zero ?_)
      simp only [Group.positional?, Option.toList_some, List.length_singleton] at onlyProgram
      omega

/-- Groups of a run can be applied in order exactly if they are acceptable, and what has been read
then is what they describe. -/
theorem foldlM_applyToRun_eq_ok_iff (admits : ∀ group ∈ groups, runGrammar.Admits group) :
    groups.foldlM applyToRun ⟨none, .plain ""⟩ = .ok last ↔
      Acceptable groups ∧ last = draftOf groups := by
  -- From the last group: what has been read before it is what the groups before it describe.
  induction groups using List.reverseRecOn generalizing last with
  | nil =>
      have start : draftOf [] = ⟨none, .plain ""⟩ := rfl
      rw [start]
      constructor
      · intro applied
        cases applied
        exact ⟨⟨nofun, nofun, Nat.zero_le 1⟩, rfl⟩
      · rintro ⟨_, rfl⟩
        rfl
  | append_singleton groups group inductionHypothesis =>
      obtain ⟨admitsBefore, admitsLast⟩ := List.forall_mem_append.mp admits
      have before (draft : Draft Plan) := @inductionHypothesis draft admitsBefore
      rw [List.foldlM_append]
      constructor
      · intro applied
        cases first : groups.foldlM applyToRun ⟨none, .plain ""⟩ with
        | error refusal =>
            rw [first] at applied
            cases applied
        | ok draft =>
            obtain ⟨acceptable, rfl⟩ := (before draft).mp first
            rw [first] at applied
            have second : applyToRun (draftOf groups) group = .ok last := by
              rw [← bind_pure (applyToRun (draftOf groups) group)]
              exact applied
            have isAcceptable : Acceptable (groups ++ [group]) := {
              admits := admits
              readable := List.forall_mem_append.mpr ⟨acceptable.readable,
                List.forall_mem_singleton.mpr (readable_of_applyToRun second)⟩
              onlyProgram := onlyProgram_of_applyToRun acceptable.onlyProgram second }
            have same := second.symm.trans (applyToRun_of_acceptable isAcceptable)
            exact ⟨isAcceptable, Except.ok.inj same⟩
      · rintro ⟨acceptable, rfl⟩
        rw [(before (draftOf groups)).mpr ⟨acceptable.init, rfl⟩]
        show (applyToRun (draftOf groups) group >>= fun next => .ok next) = _
        rw [applyToRun_of_acceptable acceptable]
        rfl

/-! ## Reading -/

theorem DescribeRun.acceptable (describe : DescribeRun groups) : Acceptable groups :=
  ⟨describe.admits, describe.readable, Nat.le_of_eq describe.oneProgram⟩

/-- Only a program can be missing in the end. -/
theorem complete_draftOf_eq_ok_iff {plan : Plan} :
    (draftOf groups).complete (fun program plan => { plan with program }) = .ok plan ↔
      positionals groups ≠ [] ∧ plan = described groups := by
  unfold Draft.complete draftOf
  cases named : positionals groups with
  | nil => simp
  | cons program others =>
      have same : described groups = { described groups with program } := by
        simp [described, named]
      rw [same]
      simp [eq_comm]

/-- Arguments describe a plan exactly if they are divided into groups of a run that name one
program. -/
theorem readRun_eq_ok_iff {arguments : List String} {plan : Plan} :
    readRun arguments = .ok plan ↔
      ∃ groups : List Group, arguments = groups.flatMap Group.arguments ∧ DescribeRun groups ∧
        plan = described groups := by
  unfold readRun
  constructor
  · intro ended
    cases drafted : readGroups runGrammar applyToRun ⟨none, .plain ""⟩ arguments with
    | error refusal =>
        rw [drafted] at ended
        cases ended
    | ok draft =>
        rw [drafted] at ended
        obtain ⟨groups, divided, admits, applied⟩ := readGroups_eq_ok_iff.mp drafted
        obtain ⟨acceptable, rfl⟩ := (foldlM_applyToRun_eq_ok_iff admits).mp applied
        obtain ⟨named, isPlan⟩ := complete_draftOf_eq_ok_iff.mp ended
        have positive := List.length_pos_iff.mpr named
        have onlyProgram := acceptable.onlyProgram
        exact ⟨groups, divided, ⟨admits, acceptable.readable, by omega⟩, isPlan⟩
  · rintro ⟨groups, divided, describe, isPlan⟩
    have applied := (foldlM_applyToRun_eq_ok_iff describe.admits).mpr ⟨describe.acceptable, rfl⟩
    have named : positionals groups ≠ [] := by
      intro unnamed
      have oneProgram := describe.oneProgram
      rw [unnamed] at oneProgram
      cases oneProgram
    rw [readGroups_eq_ok_iff.mpr ⟨groups, divided, describe.admits, applied⟩]
    exact complete_draftOf_eq_ok_iff.mpr ⟨named, isPlan⟩

/-- Help is asked for behind groups that are acceptable, and before any fault. -/
def HelpComesFirst (arguments : List String) : Prop :=
  ∃ (groups : List Group) (help : String) (rest : List String),
    arguments = groups.flatMap Group.arguments ++ help :: rest ∧ Acceptable groups ∧
      asksForHelp help = true

theorem applyToRun_ne_help (draft : Draft Plan) (group : Group) :
    applyToRun draft group ≠ .error .helpWanted := by
  cases group with
  | switch which => exact nofun
  | positional argument =>
      rw [applyToRun, Draft.takeProgram]
      split <;> exact nofun
  | setting which value =>
      cases which with
      | breakpoint =>
          rw [applyToRun, setOption, readAddress]
          cases Numeral.readAddress value <;> exact nofun
      | maxSteps =>
          rw [applyToRun, setOption, readNumber]
          cases Numeral.readNumber value <;> exact nofun
      | state | input | send | trace | log | save => exact nofun

theorem readRun_eq_help_iff {arguments : List String} :
    readRun arguments = .error .helpWanted ↔ HelpComesFirst arguments := by
  have asks : readGroups runGrammar applyToRun ⟨none, .plain ""⟩ arguments = .error .helpWanted ↔
      HelpComesFirst arguments := by
    rw [readGroups_eq_help_iff applyToRun_ne_help]
    constructor
    · rintro ⟨groups, help, rest, divided, admits, ⟨last, applied⟩, isHelp⟩
      exact ⟨groups, help, rest, divided, ((foldlM_applyToRun_eq_ok_iff admits).mp applied).1,
        isHelp⟩
    · rintro ⟨groups, help, rest, divided, acceptable, isHelp⟩
      exact ⟨groups, help, rest, divided, acceptable.admits,
        ⟨_, (foldlM_applyToRun_eq_ok_iff acceptable.admits).mpr ⟨acceptable, rfl⟩⟩, isHelp⟩
  rw [← asks, readRun]
  cases readGroups runGrammar applyToRun ⟨none, .plain ""⟩ arguments with
  | error refusal =>
      exact ⟨fun refused => congrArg _ (Except.error.inj refused),
        fun refused => congrArg _ (Except.error.inj refused)⟩
  | ok draft =>
      refine ⟨fun refused => ?_, nofun⟩
      simp only [Draft.complete] at refused
      split at refused <;> cases refused

/-! ## Messages -/

/-- The message begins like the help. -/
def BeginsWithUsage (message : String) : Prop := "Usage:".toList <+: message.toList

instance (message : String) : Decidable (BeginsWithUsage message) :=
  inferInstanceAs (Decidable ("Usage:".toList <+: message.toList))

theorem not_beginsWithUsage {opening : String} {first : Char} (different : first ≠ 'U')
    (opens : opening.toList.head? = some first) (text : String) :
    ¬ BeginsWithUsage (opening ++ text) := by
  rintro ⟨rest, written⟩
  have head := congrArg List.head? written
  rw [List.head?_append, String.toList_append, List.head?_append, opens] at head
  exact different (Option.some.inj head).symm

/-- The first line of the help tells how the program is used. -/
theorem beginsWithUsage_helpText : BeginsWithUsage CommandLine.helpText := by
  obtain ⟨others, lines⟩ : ∃ others, CommandLine.helpLines =
      "Usage: synacor-dbg <command> [options]" :: others := ⟨_, rfl⟩
  rw [BeginsWithUsage, CommandLine.helpText, lines, List.map_cons, String.join_cons,
    String.append_assoc, String.toList_append]
  exact List.IsPrefix.trans (by decide) (List.prefix_append _ _)

/-- Only the help begins like the help. -/
theorem beginsWithUsage_refusalMessage_iff (refusal : Refusal) :
    BeginsWithUsage (CommandLine.refusalMessage refusal) ↔ refusal = .helpWanted := by
  cases refusal with
  | helpWanted => exact ⟨fun _ => rfl, fun _ => beginsWithUsage_helpText⟩
  | missingCommand | severalPrograms | missingProgram =>
      exact ⟨fun begins => absurd begins (by decide +kernel), nofun⟩
  | unknownCommand text | unknownOption text | unexpected text =>
      exact ⟨fun begins => absurd begins (not_beginsWithUsage (show 'u' ≠ 'U' by decide) rfl text),
        nofun⟩
  | missingValue flag =>
      exact ⟨fun begins => absurd begins (not_beginsWithUsage (show 'm' ≠ 'U' by decide) rfl flag),
        nofun⟩
  | invalidNumber invalid =>
      have parts : invalid.message = "invalid number '" ++ (invalid.text ++ "'") :=
        String.append_assoc
      have other : ¬ BeginsWithUsage invalid.message :=
        parts ▸ not_beginsWithUsage (show 'i' ≠ 'U' by decide) rfl _
      exact ⟨fun begins => absurd begins other, nofun⟩

/-! ## Reordering -/

/-- The flag of a group, if it has one. -/
def Group.flag? : Group → Option String
  | .switch which => some which.flag
  | .setting which _ => some which.flag
  | .positional _ => none

/-- The same groups in another order, in which those of each flag follow each other as before. -/
structure Reordered (groups other : List Group) : Prop where
  perm : other.Perm groups
  sameOrder : ∀ flag : String, other.filter (fun group => group.flag? == some flag) =
    groups.filter fun group => group.flag? == some flag

/-- The values of a setting are told by the groups of its flag. -/
theorem valuesOf_eq_filter (which : Setting) (groups : List Group) :
    valuesOf which groups =
      valuesOf which (groups.filter fun group => group.flag? == some which.flag) := by
  rw [valuesOf, valuesOf, List.filterMap_filter]
  congr 1
  funext group
  split
  · rfl
  · next different =>
      cases group with
      | switch _ | positional _ => rfl
      | setting other value =>
          have isOther : other ≠ which := by
            rintro rfl
            exact different (beq_self_eq_true _)
          exact if_neg isOther

theorem Reordered.valuesOf_eq {groups other : List Group} (reordered : Reordered groups other)
    (which : Setting) : valuesOf which other = valuesOf which groups := by
  rw [valuesOf_eq_filter, reordered.sameOrder, ← valuesOf_eq_filter]

theorem Reordered.positionals_eq {groups other : List Group} (reordered : Reordered groups other)
    (oneProgram : (positionals groups).length = 1) : positionals other = positionals groups := by
  obtain ⟨program, named⟩ := List.length_eq_one_iff.mp oneProgram
  have same := reordered.perm.filterMap Group.positional?
  have isSame : (positionals other).Perm [program] := named ▸ same
  rw [named, List.perm_singleton.mp isSame]

theorem Reordered.describeRun {groups other : List Group} (reordered : Reordered groups other)
    (describe : DescribeRun groups) : DescribeRun other where
  admits group member := describe.admits group (reordered.perm.mem_iff.mp member)
  readable group member := describe.readable group (reordered.perm.mem_iff.mp member)
  oneProgram := reordered.positionals_eq describe.oneProgram ▸ describe.oneProgram

theorem Reordered.described_eq {groups other : List Group} (reordered : Reordered groups other)
    (oneProgram : (positionals groups).length = 1) : described other = described groups := by
  simp only [described, reordered.valuesOf_eq, reordered.positionals_eq oneProgram,
    reordered.perm.mem_iff]

/-! ## Plans that can be described -/

/-- The values that a plan gives to a setting. -/
def saidBy (plan : Plan) : Setting → List String
  | .state => plan.state.toList
  | .input => plan.input.toList
  | .send => plan.send
  | .breakpoint => plan.breakpoints.map toString
  | .maxSteps => plan.maxSteps.toList.map toString
  | .trace => plan.trace.toList
  | .log => plan.log.toList
  | .save => plan.save.toList

/-- The plan has the switch thrown. -/
def thrownBy (plan : Plan) : Switch → Bool
  | .readInput => plan.readInput
  | .continueFirst => plan.continueFirst
  | .disableTrace => plan.disableTrace
  | .includeData => false

/-- Groups that describe a plan. -/
def groupsOf (plan : Plan) : List Group :=
  .positional plan.program ::
    (runGrammar.settings.flatMap (fun which => (saidBy plan which).map (.setting which)) ++
      (runGrammar.switches.filter (thrownBy plan)).map .switch)

/-- A plan that arguments can describe: its program does not look like an option, and its numbers
are in range. -/
structure Describable (plan : Plan) : Prop where
  noDash : beginsWithDash plan.program = false
  addresses : ∀ address ∈ plan.breakpoints, address < 0x10000
  counts : ∀ most ∈ plan.maxSteps, most < 0x10000000000000000

theorem mem_groupsOf_iff {plan : Plan} {group : Group} :
    group ∈ groupsOf plan ↔
      group = .positional plan.program ∨
      (∃ which ∈ runGrammar.settings, ∃ value ∈ saidBy plan which, .setting which value = group) ∨
      ∃ which, (which ∈ runGrammar.switches ∧ thrownBy plan which = true) ∧
        .switch which = group := by
  simp only [groupsOf, List.mem_cons, List.mem_append, List.mem_flatMap, List.mem_map,
    List.mem_filter]

theorem accepts_of_saidBy {plan : Plan} (describable : Describable plan) {which : Setting}
    {value : String} (said : value ∈ saidBy plan which) : which.Accepts value := by
  cases which with
  | breakpoint =>
      obtain ⟨address, member, rfl⟩ := List.mem_map.mp said
      exact ⟨address, Numeral.readAddress_toString (describable.addresses address member)⟩
  | maxSteps =>
      obtain ⟨most, member, rfl⟩ := List.mem_map.mp said
      exact ⟨most, Numeral.readNumber_toString
        (describable.counts most (Option.mem_toList.mp member))⟩
  | state | input | send | trace | log | save => exact trivial

theorem valuesOf_settings (which other : Setting) (values : List String) :
    (values.map (.setting other)).filterMap (Group.valueOf? which) =
      if other = which then values else [] := by
  rw [List.filterMap_map]
  split
  · next same =>
      have takes : Group.valueOf? which ∘ .setting other = some := funext fun _ => if_pos same
      rw [takes, List.filterMap_some]
  · next different => exact List.filterMap_eq_nil_iff.mpr fun _ _ => if_neg different

theorem valuesOf_groupsOf (plan : Plan) (which : Setting) :
    valuesOf which (groupsOf plan) = saidBy plan which := by
  have switches (thrown : List Switch) :
      (thrown.map .switch).filterMap (Group.valueOf? which) = [] := by
    rw [List.filterMap_map]
    exact List.filterMap_eq_nil_iff.mpr fun _ _ => rfl
  rw [valuesOf, groupsOf, List.filterMap_cons_none rfl, List.filterMap_append,
    List.filterMap_flatMap, switches, List.append_nil]
  simp only [valuesOf_settings]
  cases which <;> simp [runGrammar]

theorem positionals_groupsOf (plan : Plan) : positionals (groupsOf plan) = [plan.program] := by
  have first : Group.positional? (.positional plan.program) = some plan.program := rfl
  rw [positionals, groupsOf, List.filterMap_cons_some first, List.cons_inj_right,
    List.filterMap_eq_nil_iff]
  intro group member
  rcases List.mem_append.mp member with setting | switch
  · obtain ⟨which, _, isSetting⟩ := List.mem_flatMap.mp setting
    obtain ⟨value, _, rfl⟩ := List.mem_map.mp isSetting
    rfl
  · obtain ⟨which, _, rfl⟩ := List.mem_map.mp switch
    rfl

theorem describeRun_groupsOf {plan : Plan} (describable : Describable plan) :
    DescribeRun (groupsOf plan) := by
  refine ⟨?_, ?_, by rw [positionals_groupsOf]; rfl⟩
  · intro group member
    rcases mem_groupsOf_iff.mp member with rfl | ⟨which, known, _, _, rfl⟩ | ⟨which, known, rfl⟩
    · exact describable.noDash
    · exact known
    · exact known.1
  · intro group member
    rcases mem_groupsOf_iff.mp member with rfl | ⟨which, _, value, said, rfl⟩ | ⟨which, _, rfl⟩
    · exact trivial
    · exact accepts_of_saidBy describable said
    · exact trivial

theorem filterMap_addressOf? {addresses : List Nat}
    (inSpace : ∀ address ∈ addresses, address < 0x10000) :
    (addresses.map toString).filterMap addressOf? = addresses := by
  induction addresses with
  | nil => rfl
  | cons address addresses inductionHypothesis =>
      obtain ⟨first, later⟩ := List.forall_mem_cons.mp inSpace
      have read : addressOf? (toString address) = some address := by
        rw [addressOf?, Numeral.readAddress_toString first]
        rfl
      rw [List.map_cons, List.filterMap_cons_some read, inductionHypothesis later]

theorem described_groupsOf {plan : Plan} (describable : Describable plan) :
    described (groupsOf plan) = plan := by
  have thrown (which : Switch) (known : which ∈ runGrammar.switches) :
      decide (.switch which ∈ groupsOf plan) = thrownBy plan which := by
    rw [Bool.eq_iff_iff, decide_eq_true_iff, mem_groupsOf_iff]
    simp [known]
  have last (value? : Option String) : value?.toList.getLast? = value? := by
    cases value? <;> rfl
  have addresses := filterMap_addressOf? describable.addresses
  have count : (plan.maxSteps.toList.map toString).getLast?.bind numberOf? = plan.maxSteps := by
    cases isMost : plan.maxSteps with
    | none => rfl
    | some most =>
        have read := Numeral.readNumber_toString (describable.counts most isMost)
        simp only [Option.toList_some, List.map_cons, List.map_nil, List.getLast?_singleton,
          Option.bind_some, numberOf?, read, Except.toOption]
  simp only [described, valuesOf_groupsOf, positionals_groupsOf, saidBy, last, addresses, count,
    thrown .readInput (by decide), thrown .continueFirst (by decide),
    thrown .disableTrace (by decide)]
  rfl

/-! ## The command line of a run -/

/-- The arguments of a run are read exactly by its grammar: they describe a plan if they divide into
groups of a run that name one program, and then the one that these groups describe. Groups with
different flags may change places. Every describable plan is described by some arguments. A failure
shows help exactly if help was asked for before any fault. -/
theorem run_arguments_follow_grammar :
    (∀ arguments plan, readRun arguments = .ok plan ↔
      ∃ groups : List Group, arguments = groups.flatMap Group.arguments ∧ DescribeRun groups ∧
        plan = described groups) ∧
    (∀ groups other, DescribeRun groups → Reordered groups other →
      readRun (other.flatMap Group.arguments) = readRun (groups.flatMap Group.arguments)) ∧
    (∀ plan, Describable plan → ∃ arguments, readRun arguments = .ok plan) ∧
    ∀ arguments refusal, readRun arguments = .error refusal →
      (BeginsWithUsage (CommandLine.refusalMessage refusal) ↔ HelpComesFirst arguments) := by
  refine ⟨fun _ _ => readRun_eq_ok_iff, ?_, ?_, ?_⟩
  · intro groups other describe reordered
    have plan : readRun (groups.flatMap Group.arguments) = .ok (described groups) :=
      readRun_eq_ok_iff.mpr ⟨groups, rfl, describe, rfl⟩
    rw [plan]
    exact readRun_eq_ok_iff.mpr ⟨other, rfl, reordered.describeRun describe,
      (reordered.described_eq describe.oneProgram).symm⟩
  · intro plan describable
    exact ⟨(groupsOf plan).flatMap Group.arguments, readRun_eq_ok_iff.mpr
      ⟨groupsOf plan, rfl, describeRun_groupsOf describable,
        (described_groupsOf describable).symm⟩⟩
  · intro arguments refusal refused
    rw [beginsWithUsage_refusalMessage_iff, ← readRun_eq_help_iff, refused]
    exact ⟨fun isHelp => congrArg _ isHelp, Except.error.inj⟩

/-- A program, a text to send that looks like a request for help, and a switch. -/
def sendsHelp : List Group :=
  [.positional "program", .setting .send "--help", .switch .continueFirst]

def sendsHelpLater : List Group :=
  [.switch .continueFirst, .positional "program", .setting .send "--help"]

/-- Help is not asked for by the value of a setting. -/
theorem run_arguments_follow_grammar_of_sendsHelp :
    readRun ["program", "--send", "--help", "--continue"] =
        .ok { Plan.plain "program" with send := ["--help"], continueFirst := true } ∧
      readRun ["--continue", "program", "--send", "--help"] =
        readRun ["program", "--send", "--help", "--continue"] ∧
      (∃ arguments, readRun arguments =
        .ok { Plan.plain "program" with breakpoints := [65535], maxSteps := some 0 }) ∧
      HelpComesFirst ["-h", "--save"] ∧ ¬ HelpComesFirst ["--save", "-h"] := by
  obtain ⟨reads, reorders, describes, helps⟩ := run_arguments_follow_grammar
  have describe : DescribeRun sendsHelp :=
    ⟨by decide, by simp [sendsHelp, Group.Readable, Setting.Accepts], rfl⟩
  have reordered : Reordered sendsHelp sendsHelpLater := by
    refine ⟨by decide, fun flag => ?_⟩
    by_cases isSend : "--send" = flag
    · subst isSend
      decide
    · by_cases isContinue : "--continue" = flag
      · subst isContinue
        decide
      · simp [sendsHelp, sendsHelpLater, Group.flag?, Switch.flag, Setting.flag, isSend, isContinue]
  have asked : readRun ["-h", "--save"] = .error .helpWanted := by
    rw [readRun, readGroups_of_refused _ (takeGroup_eq_help_iff.mpr rfl)]
  have saved : takeGroup runGrammar "--save" ["-h"] = .ok (.setting .save "-h", []) := rfl
  have unnamed : readRun ["--save", "-h"] = .error .missingProgram := by
    rw [readRun, readGroups_of_taken _ saved]
    simp only [applyToRun, setOption, Except.map, bind, Except.bind, readGroups_nil,
      Draft.complete]
  refine ⟨(reads _ _).mpr ⟨sendsHelp, rfl, describe, by decide⟩, reorders _ _ describe reordered,
    describes _ ⟨by decide, by decide, by decide⟩, ?_, ?_⟩
  · exact (helps _ _ asked).mp ((beginsWithUsage_refusalMessage_iff _).mpr rfl)
  · intro first
    cases (beginsWithUsage_refusalMessage_iff _).mp ((helps _ _ unnamed).mpr first)

end RegisterMachine.Arguments
