/-
How configurations come into being.

- `Config.Made c d`: a chain of operations has made the configuration `c`, and its last operation has laid the values
  `d` together: what it was given over the options of the configuration that it began with.
- `Config.Made.reads`: these values have the types of options and are the options of `c`. So nothing is made but of
  valid values, whatever the chain.
- `configurations_are_valid`: the whole account. One value for each option makes a configuration exactly if the values
  are valid, and is refused for one of them otherwise; every configuration that is made has valid options, the policy
  among them as one of the four; and an environment gives such a configuration or is refused for a value.
-/
import Brainfuck.Proofs.Layers

namespace Brainfuck

open CommandLine (Arguments SettingsError)

namespace Config

/-- a chain of operations has made the configuration, and the last of them has laid these values together -/
inductive Made : Config → Draft → Prop where
  /-- from named options over the defaults -/
  | named {options : List (Text × Value)} {c : Config} (h : ofNamed options = .ok c) :
      Made c ((default : Config).draft.under (entryValue? (named options)))
  /-- by changing named options -/
  | changed {base c : Config} {d : Draft} {options : List (Text × Value)} (hbase : Made base d)
      (h : base.replaceNamed options = .ok c) : Made c (base.draft.under (entryValue? (Config.named options)))
  /-- from a mapping, or from what is given as one -/
  | overlaid {base c : Config} {d : Draft} {v : Value} (hbase : Made base d) (h : base.overlayValue v = .ok c) :
      Made c (base.draft.under (entryValue? (entries v)))
  /-- from a file -/
  | loaded {base c : Config} {d : Draft} {files : FileTree} {path : String} (hbase : Made base d)
      (h : load files path base = .ok c) :
      Made c (base.draft.under (entryValue? ((entriesOf? files path).getD [])))
  /-- from an environment -/
  | fromEnvironment {base c : Config} {d : Draft} {env : Environment} (hbase : Made base d)
      (h : env.config base = .ok c) : Made c (base.draft.under env.value?)
  /-- from all layers of a command line -/
  | resolved {a : Arguments} {env : Environment} {files : FileTree} {c : Config} (h : a.resolve env files = .ok c) :
      Made c (a.layers env ((a.entries? files).getD [])).merged

theorem build_of_replaceNamed {c c' : Config} {options : List (Text × Value)} (h : c.replaceNamed options = .ok c') :
    (c.draft.under (entryValue? (named options))).build = .ok c' := by
  unfold replaceNamed at h
  split at h
  · cases h
  · exact build_of_settingsOf h

theorem build_of_config {base c : Config} {env : Environment} (h : env.config base = .ok c) :
    (base.draft.under env.value?).build = .ok c := by
  rw [Environment.config_of_converts (Environment.converts_of_config h) base.reads_draft] at h
  exact mapError_eq_ok_iff.1 h

/-- the values that were laid together are the options of the configuration -/
theorem Made.reads {c : Config} {d : Draft} (h : Made c d) : d.Reads c.options := by
  cases h with
  | named h => exact Draft.build_eq_ok_iff.1 (build_of_settingsOf h)
  | changed _ h => exact Draft.build_eq_ok_iff.1 (build_of_replaceNamed h)
  | overlaid _ h => exact Draft.build_eq_ok_iff.1 (entries_of_overlayValue h).2
  | loaded _ h =>
    obtain ⟨es, hes, -, hbuild⟩ := load_eq_ok_iff.1 h
    rw [hes]
    exact Draft.build_eq_ok_iff.1 hbuild
  | fromEnvironment _ h => exact Draft.build_eq_ok_iff.1 (build_of_config h)
  | resolved h =>
    obtain ⟨-, es, hes, hreads⟩ := Arguments.reads_of_resolve h
    rw [hes]
    exact hreads

end Config

namespace Environment

/-- a variable that cannot be read is what is wrong with the variables -/
theorem badVariable_of_changesOf {env : Environment} {vs : List Variable} {e : EnvironmentError}
    (h : env.changesOf vs = .error e) : ∃ v fault, e = .badVariable v fault := by
  induction vs with
  | nil => cases h
  | cons v rest ih =>
    simp only [changesOf] at h
    split at h
    · exact ih h
    · split at h
      · rename_i fault _
        cases h
        exact ⟨v, fault, rfl⟩
      · cases hrest : env.changesOf rest with
        | ok changes => simp [hrest, Except.map] at h
        | error e' =>
          simp only [hrest, Except.map, Except.error.injEq] at h
          exact ih (hrest.trans (congrArg Except.error h))

/-- what is wrong with an environment is wrong with a value -/
theorem isInvalidValue_of_config {env : Environment} {base : Config} {e : EnvironmentError}
    (h : env.config base = .error e) : (SettingsError.environment e).isInvalidValue = true := by
  rcases error_of_bind h with h | ⟨changes, -, h⟩
  · obtain ⟨v, fault, rfl⟩ := badVariable_of_changesOf h
    rfl
  · split at h
    · cases h
    · rename_i e' hreplace
      cases h
      simp [SettingsError.isInvalidValue, Draft.failsForValues_build _ _ hreplace]

end Environment

/-- **Configurations are valid.** One value for each option makes a configuration exactly if the integers are integers
and no truth values (the step limit may be null), the truth values are truth values, the policy is one of the four
names in any letter case and with blanks around it, and all ranges hold; otherwise it is refused for one of the values.
Whatever chain of operations a configuration comes from, its options are such values. Every environment gives such a
configuration over any base, or is refused for a value. -/
theorem configurations_are_valid :
    (∀ (d : Draft) (c : Config), Config.ofNamed d.assignment = .ok c ↔ d.Reads c.options) ∧
      (∀ d : Draft, (∃ c, Config.ofNamed d.assignment = .ok c) ↔ d.Valid) ∧
      (∀ (d : Draft) (e : ConfigError), Config.ofNamed d.assignment = .error e → e.isTypeError = false) ∧
      (∀ (c : Config) (d : Draft), Config.Made c d → d.Reads c.options ∧ c.options.InRange) ∧
      ∀ (env : Environment) (base : Config),
        (∃ c, env.config base = .ok c ∧ (base.draft.under env.value?).Reads c.options ∧ c.options.InRange) ∨
          ∃ e, env.config base = .error e ∧ (SettingsError.environment e).isInvalidValue = true := by
  refine ⟨?_, ?_, ?_, ?_, ?_⟩
  · intro d c
    rw [Config.ofNamed_assignment, Draft.build_eq_ok_iff]
  · intro d
    rw [Config.ofNamed_assignment, Draft.exists_build_iff]
  · intro d e h
    rw [Config.ofNamed_assignment] at h
    exact d.failsForValues_build e h
  · intro c d h
    exact ⟨h.reads, c.inRange_options⟩
  · intro env base
    cases h : env.config base with
    | ok c => exact .inl ⟨c, rfl, Draft.build_eq_ok_iff.1 (Config.build_of_config h), c.inRange_options⟩
    | error e => exact .inr ⟨e, rfl, Environment.isInvalidValue_of_config h⟩

/-- a policy in capitals with blanks around it, and then a shorter tape from the environment -/
theorem configurations_are_valid_two_operations :
    ∃ (d : Draft) (c : Config) (env : Environment) (c' : Config), d.value .eofPolicy = .ofString " ERROR\n" ∧
      Config.ofNamed d.assignment = .ok c ∧ d.Valid ∧ env.config c = .ok c' ∧ c'.tapeLength = 8 ∧
      c'.startOffset = 5 ∧ c'.eofPolicy = .error ∧ (c.draft.under env.value?).Reads c'.options ∧
      c'.options.InRange := by
  let d : Draft := ((default : Config).draft.set .startOffset (.int 5)).set .eofPolicy (.ofString " ERROR\n")
  let env : Environment := [("BF_TAPE_LENGTH", "8")]
  have hc : Config.ofNamed d.assignment = .ok { startOffset := 5, eofPolicy := .error } :=
    toOption_eq_some_iff.1 (by decide +kernel)
  have hc' : env.config { startOffset := 5, eofPolicy := .error } =
      .ok { tapeLength := 8, startOffset := 5, eofPolicy := .error } := toOption_eq_some_iff.1 (by decide +kernel)
  obtain ⟨-, haccepted, -, hmade, -⟩ := configurations_are_valid
  obtain ⟨hreads, hrange⟩ := hmade _ _ (.fromEnvironment (.named hc) hc')
  exact ⟨d, _, env, _, rfl, hc, (haccepted d).1 ⟨_, hc⟩, hc', rfl, rfl, rfl, hreads, hrange⟩

end Brainfuck
