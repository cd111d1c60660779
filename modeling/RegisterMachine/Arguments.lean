import RegisterMachine.Numeral
import RegisterMachine.Session.Plan

/-!
Contract: what the arguments of the command line ask for.

The first argument names a command. The others fall into groups: a switch
alone, an option with the argument after it, whatever that looks like, or any
argument that does not begin with a dash. Groups are taken from left to right
and the first fault ends the reading; a request for help is such a fault too.

Owns: `Switch`, `Setting`, `Group`, the grammar of each command, `Refusal`.
Does not own: what a command does (`CommandLine`) and the text of the help.
-/

namespace RegisterMachine.Arguments

/-- Why arguments are no command. -/
inductive Refusal where
  | helpWanted
  | missingCommand
  | unknownCommand (name : String)
  | missingValue (flag : String)
  | unknownOption (flag : String)
  | severalPrograms
  | missingProgram
  | unexpected (argument : String)
  | invalidNumber (invalid : InvalidNumber)
deriving DecidableEq, Repr

/-! ## Groups -/

/-- An argument that stands alone. -/
inductive Switch where
  | readInput
  | continueFirst
  | disableTrace
  | includeData
deriving DecidableEq, Repr

/-- An argument that takes the one after it. -/
inductive Setting where
  | state
  | input
  | send
  | breakpoint
  | maxSteps
  | trace
  | log
  | save
deriving DecidableEq, Repr

def Switch.flag : Switch → String
  | .readInput => "--stdin"
  | .continueFirst => "--continue"
  | .disableTrace => "--no-trace"
  | .includeData => "--all"

def Setting.flag : Setting → String
  | .state => "--state"
  | .input => "--input"
  | .send => "--send"
  | .breakpoint => "--break"
  | .maxSteps => "--max-steps"
  | .trace => "--trace"
  | .log => "--log"
  | .save => "--save"

inductive Group where
  | switch (which : Switch)
  | setting (which : Setting) (value : String)
  | positional (argument : String)
deriving DecidableEq, Repr

/-- The arguments of a group. -/
def Group.arguments : Group → List String
  | .switch which => [which.flag]
  | .setting which value => [which.flag, value]
  | .positional argument => [argument]

/-- The switches and settings of a command. -/
structure Grammar where
  switches : List Switch
  settings : List Setting
deriving DecidableEq, Repr

def asksForHelp (argument : String) : Bool := argument == "--help" || argument == "-h"

def beginsWithDash (argument : String) : Bool := argument.toList.head? == some '-'

/-- The value that a flag takes, and the arguments after it. -/
def takeValue (flag : String) : List String → Except Refusal (String × List String)
  | [] => .error (.missingValue flag)
  | value :: rest => .ok (value, rest)

/-- The group that begins with `first`, and the arguments after the group. -/
def takeGroup (grammar : Grammar) (first : String) (rest : List String) :
    Except Refusal (Group × List String) :=
  if asksForHelp first then
    .error .helpWanted
  else
    match grammar.switches.find? fun which => which.flag == first with
    | some which => .ok (.switch which, rest)
    | none =>
        match grammar.settings.find? fun which => which.flag == first with
        | some which => (takeValue first rest).map fun (value, rest) => (.setting which value, rest)
        | none =>
            if beginsWithDash first then .error (.unknownOption first)
            else .ok (.positional first, rest)

theorem length_of_takeGroup {grammar : Grammar} {first : String} {rest after : List String}
    {group : Group} (taken : takeGroup grammar first rest = .ok (group, after)) :
    after.length ≤ rest.length := by
  unfold takeGroup at taken
  split at taken
  · contradiction
  · split at taken
    · cases taken
      exact Nat.le_refl _
    · split at taken
      · cases rest with
        | nil => contradiction
        | cons value rest =>
            cases taken
            exact Nat.le_succ _
      · split at taken
        · contradiction
        · cases taken
          exact Nat.le_refl _

/-- Takes all groups in order, each of which changes what has been read so far. -/
def readGroups {A : Type} (grammar : Grammar) (apply : A → Group → Except Refusal A)
    (sofar : A) (arguments : List String) : Except Refusal A :=
  match arguments with
  | [] => .ok sofar
  | first :: rest =>
      match _taken : takeGroup grammar first rest with
      | .error refusal => .error refusal
      | .ok (group, after) =>
          match apply sofar group with
          | .error refusal => .error refusal
          | .ok sofar => readGroups grammar apply sofar after
termination_by arguments.length
decreasing_by
  have afterLe := length_of_takeGroup _taken
  simp only [List.length_cons]
  omega

def readNumber (text : String) : Except Refusal Nat :=
  match Numeral.readNumber text with
  | .ok value => .ok value
  | .error invalid => .error (.invalidNumber invalid)

def readAddress (text : String) : Except Refusal Nat :=
  match Numeral.readAddress text with
  | .ok value => .ok value
  | .error invalid => .error (.invalidNumber invalid)

/-! ## Commands -/

/-- What to list of a memory. -/
structure DumpRequest where
  program : String
  state : Option String
  start : Nat
  /-- Without an end, the listing goes to the end of memory. -/
  stop : Option Nat
  includeData : Bool
deriving DecidableEq, Repr

structure ShowRequest where
  program : String
  state : Option String
deriving DecidableEq, Repr

inductive Command where
  | run (plan : Session.Plan)
  | dump (request : DumpRequest)
  | view (request : ShowRequest)
deriving DecidableEq, Repr

/-- What has been read of a command, which may still lack its program. -/
structure Draft (A : Type) where
  program : Option String
  rest : A

/-- The command with its program. -/
def Draft.complete {A B : Type} (draft : Draft A) (build : String → A → B) : Except Refusal B :=
  match draft.program with
  | some program => .ok (build program draft.rest)
  | none => .error .missingProgram

/-- The first positional argument is the program, and there must be no second one. -/
def Draft.takeProgram {A : Type} (draft : Draft A) (argument : String) :
    Except Refusal (Draft A) :=
  match draft.program with
  | none => .ok { draft with program := some argument }
  | some _ => .error .severalPrograms

/-! ### Running -/

def runGrammar : Grammar :=
  ⟨[.readInput, .continueFirst, .disableTrace],
    [.state, .input, .send, .breakpoint, .maxSteps, .trace, .log, .save]⟩

def setSwitch (plan : Session.Plan) : Switch → Session.Plan
  | .readInput => { plan with readInput := true }
  | .continueFirst => { plan with continueFirst := true }
  | .disableTrace => { plan with disableTrace := true }
  | .includeData => plan

def setOption (plan : Session.Plan) (which : Setting) (value : String) :
    Except Refusal Session.Plan :=
  match which with
  | .state => .ok { plan with state := some value }
  | .input => .ok { plan with input := some value }
  | .send => .ok { plan with send := plan.send ++ [value] }
  | .breakpoint =>
      (readAddress value).map fun address =>
        { plan with breakpoints := plan.breakpoints ++ [address] }
  | .maxSteps => (readNumber value).map fun count => { plan with maxSteps := some count }
  | .trace => .ok { plan with trace := some value }
  | .log => .ok { plan with log := some value }
  | .save => .ok { plan with save := some value }

def applyToRun (draft : Draft Session.Plan) : Group → Except Refusal (Draft Session.Plan)
  | .switch which => .ok { draft with rest := setSwitch draft.rest which }
  | .setting which value =>
      (setOption draft.rest which value).map fun plan => { draft with rest := plan }
  | .positional argument => draft.takeProgram argument

/-- The plan that the arguments of a run describe. -/
def readRun (arguments : List String) : Except Refusal Session.Plan :=
  match readGroups runGrammar applyToRun ⟨none, .plain ""⟩ arguments with
  | .error refusal => .error refusal
  | .ok draft => draft.complete fun program plan => { plan with program }

/-! ### Listing -/

def dumpGrammar : Grammar := ⟨[.includeData], [.state]⟩

/-- The members of a listing's request while it is read. -/
structure DumpDraft where
  state : Option String
  /-- At most two. -/
  bounds : List Nat
  includeData : Bool
deriving DecidableEq, Repr

/-- The first positional argument is the program, and two more may be addresses. -/
def takeBounds (draft : Draft DumpDraft) (argument : String) : Except Refusal (Draft DumpDraft) :=
  match draft.program with
  | none => .ok { draft with program := some argument }
  | some _ =>
      if draft.rest.bounds.length < 2 then
        (readAddress argument).map fun address =>
          { draft with rest := { draft.rest with bounds := draft.rest.bounds ++ [address] } }
      else
        .error (.unexpected argument)

def applyToDump (draft : Draft DumpDraft) : Group → Except Refusal (Draft DumpDraft)
  | .switch _ => .ok { draft with rest := { draft.rest with includeData := true } }
  | .setting _ value => .ok { draft with rest := { draft.rest with state := some value } }
  | .positional argument => takeBounds draft argument

/-- The request that the arguments of a listing describe. -/
def readDump (arguments : List String) : Except Refusal DumpRequest :=
  match readGroups dumpGrammar applyToDump ⟨none, ⟨none, [], false⟩⟩ arguments with
  | .error refusal => .error refusal
  | .ok draft =>
      draft.complete fun program rest =>
        ⟨program, rest.state, rest.bounds.head?.getD 0, rest.bounds[1]?, rest.includeData⟩

/-! ### Viewing -/

def showGrammar : Grammar := ⟨[], [.state]⟩

def applyToShow (draft : Draft (Option String)) :
    Group → Except Refusal (Draft (Option String))
  | .switch _ => .ok draft
  | .setting _ value => .ok { draft with rest := some value }
  | .positional argument => draft.takeProgram argument

/-- The request that the arguments of a view describe. -/
def readShow (arguments : List String) : Except Refusal ShowRequest :=
  match readGroups showGrammar applyToShow ⟨none, none⟩ arguments with
  | .error refusal => .error refusal
  | .ok draft => draft.complete ShowRequest.mk

/-- The command that all arguments together describe. -/
def read : List String → Except Refusal Command
  | [] => .error .missingCommand
  | first :: rest =>
      if asksForHelp first then .error .helpWanted
      else
        match first with
        | "run" => (readRun rest).map .run
        | "dump" => (readDump rest).map .dump
        | "show" => (readShow rest).map .view
        | name => .error (.unknownCommand name)

end RegisterMachine.Arguments
