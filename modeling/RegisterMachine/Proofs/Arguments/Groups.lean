import RegisterMachine.Arguments

/-!
Contract: arguments are read in groups, and in one way only.

The flags of all switches and settings are different, begin with a dash, and ask
for no help. So the first argument tells which group begins with it, and reading
goes through the groups of the arguments in order, up to the first argument that
begins none.

Owns: `Grammar.Admits`, the division of arguments into groups.
Does not own: what the groups of a command mean (`Proofs.Arguments.RunPlans`).
-/

namespace RegisterMachine.Arguments

/-! ## Flags -/

theorem Switch.eq_of_flag {which other : Switch} (same : which.flag = other.flag) :
    which = other := by
  cases which <;> cases other <;> first | rfl | exact absurd same (by decide)

theorem Setting.eq_of_flag {which other : Setting} (same : which.flag = other.flag) :
    which = other := by
  cases which <;> cases other <;> first | rfl | exact absurd same (by decide)

theorem Switch.flag_ne (which : Switch) (setting : Setting) : which.flag ≠ setting.flag := by
  cases which <;> cases setting <;> decide

theorem Switch.not_asksForHelp (which : Switch) : asksForHelp which.flag = false := by
  cases which <;> decide

theorem Setting.not_asksForHelp (which : Setting) : asksForHelp which.flag = false := by
  cases which <;> decide

theorem Switch.beginsWithDash_flag (which : Switch) : beginsWithDash which.flag = true := by
  cases which <;> decide

theorem Setting.beginsWithDash_flag (which : Setting) : beginsWithDash which.flag = true := by
  cases which <;> decide

theorem beginsWithDash_of_asksForHelp {argument : String} (asks : asksForHelp argument = true) :
    beginsWithDash argument = true := by
  simp only [asksForHelp, Bool.or_eq_true, beq_iff_eq] at asks
  rcases asks with rfl | rfl <;> decide

section
variable {A : Type} {flag : A → String} {all : List A} {which : A} {argument : String}

/-- If flags tell what they belong to, looking for a flag finds it. -/
theorem find?_flag (unique : ∀ {which other}, flag which = flag other → which = other)
    (member : which ∈ all) : all.find? (fun other => flag other == flag which) = some which := by
  have found : (all.find? fun other => flag other == flag which).isSome :=
    List.find?_isSome.mpr ⟨which, member, beq_self_eq_true (flag which)⟩
  obtain ⟨other, isOther⟩ := Option.isSome_iff_exists.mp found
  have same := List.find?_some isOther
  rw [isOther, unique (eq_of_beq same)]

theorem of_find?_flag (found : all.find? (fun which => flag which == argument) = some which) :
    which ∈ all ∧ flag which = argument := by
  have same := List.find?_some found
  exact ⟨List.mem_of_find?_eq_some found, eq_of_beq same⟩

/-- An argument without a dash is none of the flags, all of which have one. -/
theorem find?_flag_of_noDash (dashed : ∀ which, beginsWithDash (flag which) = true)
    (noDash : beginsWithDash argument = false) :
    all.find? (fun which => flag which == argument) = none := by
  refine List.find?_eq_none.mpr fun which _ same => ?_
  rw [← eq_of_beq same, dashed] at noDash
  cases noDash

end

/-! ## One group -/

/-- The command has the switch or the setting of the group, or the group is positional. -/
def Grammar.Admits (grammar : Grammar) : Group → Prop
  | .switch which => which ∈ grammar.switches
  | .setting which _ => which ∈ grammar.settings
  | .positional argument => beginsWithDash argument = false

instance (grammar : Grammar) (group : Group) : Decidable (grammar.Admits group) :=
  match group with
  | .switch which => inferInstanceAs (Decidable (which ∈ grammar.switches))
  | .setting which _ => inferInstanceAs (Decidable (which ∈ grammar.settings))
  | .positional argument => inferInstanceAs (Decidable (beginsWithDash argument = false))

variable {grammar : Grammar} {first : String} {rest after : List String} {group : Group}

/-- The group that is taken is the one with which the arguments begin. -/
theorem takeGroup_eq_ok_iff :
    takeGroup grammar first rest = .ok (group, after) ↔
      grammar.Admits group ∧ first :: rest = group.arguments ++ after := by
  constructor
  · intro taken
    unfold takeGroup at taken
    split at taken
    · cases taken
    · split at taken
      · next which found =>
          cases taken
          obtain ⟨member, isFlag⟩ := of_find?_flag found
          exact ⟨member, by rw [← isFlag]; rfl⟩
      · split at taken
        · next which found =>
            obtain ⟨member, isFlag⟩ := of_find?_flag found
            cases rest with
            | nil => cases taken
            | cons value rest =>
                cases taken
                exact ⟨member, by rw [← isFlag]; rfl⟩
        · split at taken
          · cases taken
          · next noDash =>
              cases taken
              exact ⟨Bool.eq_false_iff.mpr noDash, rfl⟩
  · rintro ⟨admits, begins⟩
    cases group with
    | switch which =>
        cases begins
        rw [takeGroup, which.not_asksForHelp, if_neg Bool.false_ne_true,
          find?_flag Switch.eq_of_flag admits]
        rfl
    | setting which value =>
        cases begins
        have noSwitch : grammar.switches.find? (fun other => other.flag == which.flag) = none :=
          List.find?_eq_none.mpr fun other _ same => other.flag_ne which (eq_of_beq same)
        rw [takeGroup, which.not_asksForHelp, if_neg Bool.false_ne_true, noSwitch,
          find?_flag Setting.eq_of_flag admits]
        rfl
    | positional argument =>
        cases begins
        have noDash : beginsWithDash first = false := admits
        have noHelp : asksForHelp first = false := by
          apply Bool.eq_false_iff.mpr
          intro asks
          rw [beginsWithDash_of_asksForHelp asks] at noDash
          cases noDash
        rw [takeGroup, noHelp, if_neg Bool.false_ne_true,
          find?_flag_of_noDash Switch.beginsWithDash_flag noDash,
          find?_flag_of_noDash Setting.beginsWithDash_flag noDash]
        simp only [noDash, Bool.false_eq_true, if_false]
        rfl

theorem takeGroup_eq_help_iff :
    takeGroup grammar first rest = .error .helpWanted ↔ asksForHelp first = true := by
  unfold takeGroup
  constructor
  · intro refused
    split at refused
    · assumption
    · split at refused
      · cases refused
      · split at refused
        · cases rest <;> cases refused
        · split at refused <;> cases refused
  · exact fun asks => if_pos asks

/-! ## All groups -/

section
variable {A : Type} {apply : A → Group → Except Refusal A}

theorem readGroups_nil (sofar : A) : readGroups grammar apply sofar [] = .ok sofar := by
  rw [readGroups]

theorem readGroups_of_taken (sofar : A)
    (taken : takeGroup grammar first rest = .ok (group, after)) :
    readGroups grammar apply sofar (first :: rest) =
      apply sofar group >>= fun next => readGroups grammar apply next after := by
  rw [readGroups]
  split
  · next refused =>
      rw [taken] at refused
      cases refused
  · next again =>
      rw [taken] at again
      cases again
      cases apply sofar group <;> rfl

theorem readGroups_of_refused (sofar : A) {refusal : Refusal}
    (refused : takeGroup grammar first rest = .error refusal) :
    readGroups grammar apply sofar (first :: rest) = .error refusal := by
  rw [readGroups]
  split
  · next again =>
      rw [refused] at again
      cases again
      rfl
  · next taken =>
      rw [refused] at taken
      cases taken

/-- The groups at the beginning are applied in order, and reading goes on behind them. -/
theorem readGroups_append {groups : List Group} (admits : ∀ group ∈ groups, grammar.Admits group)
    (sofar : A) (rest : List String) :
    readGroups grammar apply sofar (groups.flatMap Group.arguments ++ rest) =
      groups.foldlM apply sofar >>= fun next => readGroups grammar apply next rest := by
  induction groups generalizing sofar with
  | nil => rfl
  | cons group groups inductionHypothesis =>
      obtain ⟨admitsFirst, admitsLater⟩ := List.forall_mem_cons.mp admits
      obtain ⟨first, others, begins⟩ : ∃ first others, group.arguments = first :: others := by
        cases group <;> exact ⟨_, _, rfl⟩
      have taken : takeGroup grammar first
          (others ++ (groups.flatMap Group.arguments ++ rest)) =
            .ok (group, groups.flatMap Group.arguments ++ rest) := by
        refine takeGroup_eq_ok_iff.mpr ⟨admitsFirst, ?_⟩
        rw [begins, List.cons_append]
      rw [List.flatMap_cons, List.append_assoc, begins, List.cons_append,
        readGroups_of_taken sofar taken, List.foldlM_cons, bind_assoc]
      exact bind_congr fun next => inductionHypothesis admitsLater next

/-- No group begins with the first of the arguments, if there are any. -/
inductive Stuck (grammar : Grammar) : List String → Prop where
  | done : Stuck grammar []
  | refused {first : String} {rest : List String} {refusal : Refusal}
      (refused : takeGroup grammar first rest = .error refusal) : Stuck grammar (first :: rest)

/-- All arguments up to a first fault are divided into groups. -/
theorem exists_groups (grammar : Grammar) (arguments : List String) :
    ∃ (groups : List Group) (stuck : List String),
      arguments = groups.flatMap Group.arguments ++ stuck ∧
      (∀ group ∈ groups, grammar.Admits group) ∧ Stuck grammar stuck := by
  -- On the number of arguments, of which every group takes at least one.
  induction length : arguments.length using Nat.strongRecOn generalizing arguments with
  | ind length inductionHypothesis =>
      subst length
      cases arguments with
      | nil => exact ⟨[], [], rfl, nofun, .done⟩
      | cons first rest =>
          cases taken : takeGroup grammar first rest with
          | error refusal => exact ⟨[], first :: rest, rfl, nofun, .refused taken⟩
          | ok found =>
              obtain ⟨group, after⟩ := found
              obtain ⟨admits, begins⟩ := takeGroup_eq_ok_iff.mp taken
              have shorter := length_of_takeGroup taken
              obtain ⟨groups, stuck, divided, admitsLater, isStuck⟩ :=
                inductionHypothesis after.length (Nat.lt_succ_of_le shorter) after rfl
              refine ⟨group :: groups, stuck, ?_, ?_, isStuck⟩
              · rw [begins, divided, List.flatMap_cons, List.append_assoc]
              · exact List.forall_mem_cons.mpr ⟨admits, admitsLater⟩

/-- Reading succeeds exactly if the arguments are those of groups that can be applied in order. -/
theorem readGroups_eq_ok_iff {sofar last : A} {arguments : List String} :
    readGroups grammar apply sofar arguments = .ok last ↔
      ∃ groups : List Group, arguments = groups.flatMap Group.arguments ∧
        (∀ group ∈ groups, grammar.Admits group) ∧ groups.foldlM apply sofar = .ok last := by
  constructor
  · intro ended
    obtain ⟨groups, stuck, rfl, admits, isStuck⟩ := exists_groups grammar arguments
    rw [readGroups_append admits] at ended
    cases applied : groups.foldlM apply sofar with
    | error refusal =>
        rw [applied] at ended
        cases ended
    | ok next =>
        rw [applied] at ended
        cases isStuck with
        | done =>
            exact ⟨groups, List.append_nil _, admits,
              applied.trans ((readGroups_nil next).symm.trans ended)⟩
        | refused refused =>
            have refuses : readGroups grammar apply next _ = _ := readGroups_of_refused next refused
            cases refuses.symm.trans ended
  · rintro ⟨groups, rfl, admits, applied⟩
    have divided : readGroups grammar apply sofar (groups.flatMap Group.arguments ++ []) = _ :=
      readGroups_append admits sofar []
    rw [List.append_nil, applied] at divided
    exact divided.trans (readGroups_nil last)

/-- Reading ends with a request for help exactly if one stands behind groups that can be applied in
order, and before any fault. -/
theorem readGroups_eq_help_iff {sofar : A} {arguments : List String}
    (helpless : ∀ sofar group, apply sofar group ≠ .error .helpWanted) :
    readGroups grammar apply sofar arguments = .error .helpWanted ↔
      ∃ (groups : List Group) (help : String) (rest : List String),
        arguments = groups.flatMap Group.arguments ++ help :: rest ∧
        (∀ group ∈ groups, grammar.Admits group) ∧ (∃ last, groups.foldlM apply sofar = .ok last) ∧
        asksForHelp help = true := by
  have foldHelpless (groups : List Group) (sofar : A) :
      groups.foldlM apply sofar ≠ .error .helpWanted := by
    induction groups generalizing sofar with
    | nil => exact nofun
    | cons group groups inductionHypothesis =>
        rw [List.foldlM_cons]
        cases applied : apply sofar group with
        | error refusal =>
            intro refused
            cases refused
            exact helpless sofar group applied
        | ok next => exact inductionHypothesis next
  constructor
  · intro ended
    obtain ⟨groups, stuck, rfl, admits, isStuck⟩ := exists_groups grammar arguments
    rw [readGroups_append admits] at ended
    cases applied : groups.foldlM apply sofar with
    | error refusal =>
        rw [applied] at ended
        cases ended
        exact absurd applied (foldHelpless groups sofar)
    | ok next =>
        rw [applied] at ended
        cases isStuck with
        | done => cases (readGroups_nil next).symm.trans ended
        | refused refused =>
            have refuses : readGroups grammar apply next _ = _ := readGroups_of_refused next refused
            cases refuses.symm.trans ended
            exact ⟨groups, _, _, rfl, admits, ⟨next, applied⟩, takeGroup_eq_help_iff.mp refused⟩
  · rintro ⟨groups, help, rest, rfl, admits, ⟨last, applied⟩, asks⟩
    rw [readGroups_append admits, applied]
    exact readGroups_of_refused last (takeGroup_eq_help_iff.mpr asks)

end

end RegisterMachine.Arguments
