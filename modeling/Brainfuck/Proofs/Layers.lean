/-
The layers of options that a command line has, and what they come to.

- `Arguments.value?`: what the flags give, `Arguments.entries?` the entries of the configuration file, if one is named.
- `Layers`: what the flags, the file and the environment give. `Layers.merged`: each option has the value of the highest
  layer that gives it one, or else its default. `Layers.belowFlags` and `Layers.belowFile` leave out the upper layers.
- `Arguments.build_of_fileConfig`, `Arguments.replace_changes`: each layer is laid over those below it and must be valid
  with them. The first that is not is reported (`Arguments.answers_resolve`), and the last one's result is the
  configuration (`Arguments.reads_of_resolve`).
- `highest_layer_decides`: so the configuration has, option by option, the merged values.
- `each_layer_must_be_valid`: and there is one exactly if the environment is valid by itself, the file with the
  environment below it, and all of them. That the merged values are valid is not enough: `valid_whole_is_refused`.
-/
import Brainfuck.CommandLine.Settings
import Brainfuck.Proofs.Sections

namespace Brainfuck.CommandLine

/-! ## Flags and files -/

namespace Arguments

/-- what the flags give; a fallback byte asks for its use unless a policy is given -/
def value? (a : Arguments) : Setting → Option Value
  | .tapeLength => a.tapeLength.map intValue
  | .allowGrowth => if a.fixedTape then some (.bool false) else none
  | .wrappingCells => if a.noWrap then some (.bool false) else none
  | .maxSteps => a.maxSteps.map intValue
  | .eofValue => a.eofValue.map intValue
  | .eofPolicy =>
    match a.eof, a.eofValue with
    | some p, _ => some (.ofString p.name)
    | none, some _ => some (.ofString EofPolicy.value.name)
    | none, none => none
  | .flushOutput => if a.noFlush then some (.bool false) else none
  | .benchExecution => if a.time then some (.bool true) else none
  | .startOffset | .precomputeJumps | .growthChunk => none

/-- the options that have a flag -/
def flagged : List Setting :=
  [.tapeLength, .allowGrowth, .wrappingCells, .maxSteps, .eofValue, .eofPolicy, .flushOutput, .benchExecution]

theorem changes_eq (a : Arguments) : a.changes = flagged.filterMap fun s => (a.value? s).map (s, ·) := by
  have hcons : ∀ (f : Setting → Option (Setting × Value)) s rest,
      (s :: rest).filterMap f = (f s).toList ++ rest.filterMap f := by
    intro f s rest
    cases h : f s <;> simp [h]
  have hpolicy : a.policy.map (fun p => Value.ofString p.name) = a.value? .eofPolicy := by
    unfold policy value?
    cases a.eof <;> cases a.eofValue <;> rfl
  rw [flagged]
  simp only [hcons, List.filterMap_nil, ← hpolicy, Option.map_map]
  simp only [changes, value?, apply_ite (Option.map _), apply_ite Option.toList, Option.map_map, Option.map_some,
    Option.map_none, Option.toList_some, Option.toList_none, List.append_nil, List.append_assoc, Function.comp_def]

theorem latest_changes (a : Arguments) : Draft.latest a.changes = a.value? := by
  have hdistinct : (flagged.map id).Nodup := by decide
  funext s
  rw [changes_eq]
  refine (Draft.latest_filterMap id a.value? hdistinct s).trans ?_
  cases s <;> rfl

/-- the entries of the configuration file; if none is named there are none -/
def entries? (a : Arguments) (files : FileTree) : Option (List (Value × Value)) :=
  match a.configFile with
  | none => some []
  | some path => Config.entriesOf? files path

end Arguments

/-! ## Layers -/

/-- what the layers over the defaults give -/
structure Layers where
  flags : Setting → Option Value := fun _ => none
  file : Setting → Option Value := fun _ => none
  environment : Setting → Option Value := fun _ => none

namespace Layers

/-- each option with the value of the highest layer that gives it one, or else its default -/
def merged (l : Layers) : Draft where
  value s := (((l.flags s).or (l.file s)).or (l.environment s)).getD ((default : Config).draft.value s)

/-- the file and the environment -/
def belowFlags (l : Layers) : Layers := { l with flags := fun _ => none }

/-- the environment -/
def belowFile (l : Layers) : Layers := { environment := l.environment }

theorem under_file (l : Layers) : l.belowFile.merged.under l.file = l.belowFlags.merged := by
  refine congrArg Draft.mk (funext fun s => ?_)
  cases h : l.file s <;> simp [merged, belowFile, belowFlags, h]

theorem under_flags (l : Layers) : l.belowFlags.merged.under l.flags = l.merged := by
  refine congrArg Draft.mk (funext fun s => ?_)
  cases l.flags s <;> simp [merged, belowFlags]

end Layers

namespace Arguments

variable {a : Arguments} {env : Environment} {files : FileTree} {es : List (Value × Value)}

/-- the layers of a command line, an environment and the entries of a configuration file -/
def layers (a : Arguments) (env : Environment) (es : List (Value × Value)) : Layers where
  flags := a.value?
  file := Config.entryValue? es
  environment := env.value?

theorem fileConfig_eq {base : Config} {d : Draft} (hd : d.Reads base.options) (hes : a.entries? files = some es)
    (hknown : ∀ e ∈ es, Config.Known e.1) :
    a.fileConfig files base = ((d.under (Config.entryValue? es)).build).mapError fun e => .file (.config e) := by
  cases hconfig : a.configFile with
  | none =>
    simp only [entries?, hconfig, Option.some.injEq] at hes
    subst hes
    have hbuild : (d.under (Config.entryValue? [])).build = .ok base := Draft.build_eq_ok_iff.2 hd
    simp only [fileConfig, hconfig, hbuild, Except.mapError]
  | some path =>
    simp only [entries?, hconfig] at hes
    simp only [fileConfig, hconfig, Config.load_of_entries hd hes hknown]
    cases (d.under (Config.entryValue? es)).build <;> rfl

theorem build_of_fileConfig {base c : Config} (h : a.fileConfig files base = .ok c) :
    ∃ es, a.entries? files = some es ∧ (base.draft.under (Config.entryValue? es)).build = .ok c := by
  cases hconfig : a.configFile with
  | none =>
    simp only [fileConfig, hconfig, Except.ok.injEq] at h
    simp only [entries?, hconfig, Option.some.injEq]
    exact ⟨[], rfl, h ▸ base.build_draft⟩
  | some path =>
    simp only [fileConfig, hconfig] at h
    simp only [entries?, hconfig]
    obtain ⟨es, hes, -, hbuild⟩ := Config.load_eq_ok_iff.1 (mapError_eq_ok_iff.1 h)
    exact ⟨es, hes, hbuild⟩

/-! ## The configuration of all layers -/

theorem config_default (a : Arguments) (es : List (Value × Value)) (h : env.Converts) :
    env.config default = ((a.layers env es).belowFile.merged.build).mapError .config :=
  Environment.config_of_converts h (Config.reads_draft default)

theorem build_under_file {c : Config} (h : (a.layers env es).belowFile.merged.Reads c.options) :
    (c.draft.under (Config.entryValue? es)).build = (a.layers env es).belowFlags.merged.build := by
  rw [Config.build_under_of_reads h]
  exact congrArg Draft.build (a.layers env es).under_file

theorem replace_changes {c : Config} (h : (a.layers env es).belowFlags.merged.Reads c.options) :
    c.replace a.changes = (a.layers env es).merged.build := by
  rw [Config.replace_of_reads h, latest_changes]
  exact congrArg Draft.build (a.layers env es).under_flags

/-- a configuration that comes out has the merged values -/
theorem reads_of_resolve {c : Config} (h : a.resolve env files = .ok c) :
    env.Converts ∧ ∃ es, a.entries? files = some es ∧ (a.layers env es).merged.Reads c.options := by
  obtain ⟨c₁, henv, h⟩ := bind_eq_ok_iff.1 h
  obtain ⟨c₂, hfile, h⟩ := bind_eq_ok_iff.1 h
  have henv : env.config default = .ok c₁ := mapError_eq_ok_iff.1 henv
  have hflags : c₂.replace a.changes = .ok c := mapError_eq_ok_iff.1 h
  have hconverts := Environment.converts_of_config henv
  obtain ⟨es, hes, hbuild⟩ := build_of_fileConfig hfile
  rw [config_default a es hconverts] at henv
  have h₁ : (a.layers env es).belowFile.merged.Reads c₁.options := Draft.build_eq_ok_iff.1 (mapError_eq_ok_iff.1 henv)
  rw [build_under_file h₁] at hbuild
  have h₂ : (a.layers env es).belowFlags.merged.Reads c₂.options := Draft.build_eq_ok_iff.1 hbuild
  rw [replace_changes h₂] at hflags
  exact ⟨hconverts, es, hes, Draft.build_eq_ok_iff.1 hflags⟩

/-- **The highest layer decides.** A configuration that comes out of the layers has, option by option, the value that
the flags give it, or else the configuration file, or else the environment, or else its default; and these values keep
all rules. -/
theorem highest_layer_decides {c : Config} (h : a.resolve env files = .ok c) :
    env.Converts ∧ ∃ es, a.entries? files = some es ∧ (a.layers env es).merged.Reads c.options ∧ c.options.InRange := by
  obtain ⟨hconverts, es, hes, hreads⟩ := reads_of_resolve h
  exact ⟨hconverts, es, hes, hreads, c.inRange_options⟩

/-- a tape from the environment, no limit from the file over the one of the environment, and a policy from the flags
over the one of the file -/
theorem highest_layer_decides_three_layers :
    ∃ (a : Arguments) (env : Environment) (files : FileTree) (c : Config), a.resolve env files = .ok c ∧
      c.tapeLength = 50 ∧ c.maxSteps = none ∧ c.eofPolicy = .value ∧ c.eofValue = 7 ∧ c.wrappingCells = false ∧
      env.Converts ∧ ∃ es, a.entries? files = some es ∧ (a.layers env es).merged.Reads c.options ∧
        c.options.InRange := by
  let text := "\x7b\"interpreter\": \x7b\"max_steps\": null, \"eof_policy\": \" Error\"\x7d\x7d"
  let a : Arguments := { config := some "c.json", noWrap := true, eofValue := some (.given 7) }
  let env : Environment := [("BF_TAPE_LENGTH", " 50"), ("BF_STEP_LIMIT", "9"), ("BF_EOF_VALUE", "")]
  let files : FileTree := { entries := [(["c.json"], .file (Utf8.encode text.toList))], cwd := [] }
  let c : Config := { tapeLength := 50, wrappingCells := false, eofPolicy := .value, eofValue := 7 }
  have hresolve : a.resolve env files = .ok c := toOption_eq_some_iff.1 (by decide +kernel)
  exact ⟨a, env, files, c, hresolve, rfl, rfl, rfl, rfl, rfl, highest_layer_decides hresolve⟩

end Arguments

/-! ## What each layer has to be -/

/-- what comes of layers: the first that is not valid with those below it is reported, and if all are, the configuration
has the merged values -/
inductive Layers.Answers (l : Layers) : Except SettingsError Config → Prop where
  | accepted {c : Config} (henv : l.belowFile.merged.Valid) (hfile : l.belowFlags.merged.Valid)
      (h : l.merged.Reads c.options) : Answers l (.ok c)
  | environment {e : ConfigError} (h : l.belowFile.merged.build = .error e) :
      Answers l (.error (.environment (.config e)))
  | file {e : ConfigError} (henv : l.belowFile.merged.Valid) (h : l.belowFlags.merged.build = .error e) :
      Answers l (.error (.file (.config e)))
  | flags {e : ConfigError} (henv : l.belowFile.merged.Valid) (hfile : l.belowFlags.merged.Valid)
      (h : l.merged.build = .error e) : Answers l (.error (.flags e))

theorem Layers.Answers.isInvalidValue {l : Layers} {e : SettingsError} (h : l.Answers (.error e)) :
    e.isInvalidValue = true := by
  cases h with
  | environment h => simp [SettingsError.isInvalidValue, Draft.failsForValues_build _ _ h]
  | file _ h => simp [SettingsError.isInvalidValue, Draft.failsForValues_build _ _ h]
  | flags _ _ h => simp [SettingsError.isInvalidValue, Draft.failsForValues_build _ _ h]

namespace Arguments

variable {a : Arguments} {env : Environment} {files : FileTree} {es : List (Value × Value)}

theorem answers_resolve (henv : env.Converts) (hes : a.entries? files = some es) (hknown : ∀ e ∈ es, Config.Known e.1) :
    (a.layers env es).Answers (a.resolve env files) := by
  have hconfig := config_default a es henv
  cases h₁ : (a.layers env es).belowFile.merged.build with
  | error e =>
    rw [h₁] at hconfig
    rw [resolve, hconfig]
    exact .environment h₁
  | ok c₁ =>
    have hreads₁ := Draft.build_eq_ok_iff.1 h₁
    have hfile := fileConfig_eq hreads₁ hes hknown
    rw [← Config.build_under_of_reads hreads₁, build_under_file hreads₁] at hfile
    rw [h₁] at hconfig
    rw [resolve, hconfig, mapError_ok, mapError_ok, ok_bind, hfile]
    cases h₂ : (a.layers env es).belowFlags.merged.build with
    | error e => exact .file hreads₁.valid h₂
    | ok c₂ =>
      have hreads₂ := Draft.build_eq_ok_iff.1 h₂
      rw [mapError_ok, ok_bind, replace_changes hreads₂]
      cases h₃ : (a.layers env es).merged.build with
      | error e => exact .flags hreads₁.valid hreads₂.valid h₃
      | ok c => exact .accepted hreads₁.valid hreads₂.valid (Draft.build_eq_ok_iff.1 h₃)

/-- **Each layer must be valid with those below it.** Where the variables can be read and the configuration file is a
mapping of known options, there is a configuration exactly if the environment over the defaults is valid, the file over
both, and the flags over all; then it has the merged values. Otherwise the lowest layer with which the values are not
valid is reported, also if a higher one would have mended it. -/
theorem each_layer_must_be_valid (henv : env.Converts) (hes : a.entries? files = some es)
    (hknown : ∀ e ∈ es, Config.Known e.1) :
    (a.layers env es).Answers (a.resolve env files) ∧ (∀ e, a.resolve env files = .error e → e.isInvalidValue = true) ∧
      ((∃ c, a.resolve env files = .ok c) ↔ (a.layers env es).belowFile.merged.Valid ∧
        (a.layers env es).belowFlags.merged.Valid ∧ (a.layers env es).merged.Valid) := by
  have hanswers := answers_resolve henv hes hknown
  refine ⟨hanswers, fun e he => (he ▸ hanswers).isInvalidValue, ?_, ?_⟩
  · rintro ⟨c, hc⟩
    rw [hc] at hanswers
    cases hanswers with
    | accepted h₁ h₂ h => exact ⟨h₁, h₂, h.valid⟩
  · rintro ⟨h₁, h₂, h₃⟩
    obtain ⟨c₁, hc₁⟩ := Draft.exists_build_iff.2 h₁
    obtain ⟨c₂, hc₂⟩ := Draft.exists_build_iff.2 h₂
    obtain ⟨c₃, hc₃⟩ := Draft.exists_build_iff.2 h₃
    generalize a.resolve env files = answer at hanswers
    cases hanswers with
    | accepted => exact ⟨_, rfl⟩
    | environment h => cases hc₁.symm.trans h
    | file _ h => cases hc₂.symm.trans h
    | flags _ _ h => cases hc₃.symm.trans h

/-- a start from the environment does not lie on the tape from the file, and the tape from the flags comes too late -/
theorem each_layer_must_be_valid_short_tape :
    ∃ (a : Arguments) (env : Environment) (files : FileTree) (es : List (Value × Value)), env.Converts ∧
      a.entries? files = some es ∧ (∀ e ∈ es, Config.Known e.1) ∧ (a.layers env es).belowFile.merged.Valid ∧
      ¬ (a.layers env es).belowFlags.merged.Valid ∧ (a.layers env es).merged.Valid ∧
      ¬ ∃ c, a.resolve env files = .ok c := by
  let a : Arguments := { config := some "c.json", tapeLength := some (.given 50) }
  let env : Environment := [("BF_START_OFFSET", "40")]
  let files : FileTree :=
    { entries := [(["c.json"], .file (Utf8.encode "\x7b\"tape_length\": 30\x7d".toList))], cwd := [] }
  have hconfig : env.config default = .ok { startOffset := 40 } := toOption_eq_some_iff.1 (by decide +kernel)
  have henv := Environment.converts_of_config hconfig
  obtain ⟨es, hes, hfacts⟩ : ∃ es, a.entries? files = some es ∧
      (es.all (fun e => (Config.settingOfKey? e.1).isSome), (a.layers env es).belowFile.merged.build.toOption,
        (a.layers env es).belowFlags.merged.build.toOption, (a.layers env es).merged.build.toOption) =
      (true, some { startOffset := 40 }, none, some { tapeLength := 50, startOffset := 40 }) := by
    refine Option.map_eq_some_iff.1 ?_
    decide +kernel
  simp only [Prod.mk.injEq, List.all_eq_true, Option.isSome_iff_exists, toOption_eq_some_iff] at hfacts
  obtain ⟨hknown, hlow, hmiddle, hwhole⟩ := hfacts
  have hrefused : ¬ (a.layers env es).belowFlags.merged.Valid := by
    intro hvalid
    obtain ⟨c, hc⟩ := Draft.exists_build_iff.2 hvalid
    rw [hc] at hmiddle
    cases hmiddle
  obtain ⟨-, -, haccepted⟩ := each_layer_must_be_valid henv hes hknown
  exact ⟨a, env, files, es, henv, hes, hknown, Draft.exists_build_iff.1 ⟨_, hlow⟩, hrefused,
    Draft.exists_build_iff.1 ⟨_, hwhole⟩, fun hc => hrefused (haccepted.1 hc).2.1⟩

/-- a start from the environment, and a tape from the flags on which it lies: the whole is valid, and the start is
refused, because it does not lie on the tape that there is by default -/
theorem valid_whole_is_refused :
    Environment.Converts [("BF_START_OFFSET", "40000")] ∧
      entries? { tapeLength := some (.given 50000) } .empty = some [] ∧
      (layers { tapeLength := some (.given 50000) } [("BF_START_OFFSET", "40000")] []).merged.Valid ∧
      resolve { tapeLength := some (.given 50000) } [("BF_START_OFFSET", "40000")] .empty =
        .error (.environment (.config (.startOutside 30000))) := by
  have hconfig : Environment.config [("BF_START_OFFSET", "40000")] { tapeLength := 50000 } =
      .ok { tapeLength := 50000, startOffset := 40000 } := toOption_eq_some_iff.1 (by decide +kernel)
  have hwhole : (layers { tapeLength := some (.given 50000) } [("BF_START_OFFSET", "40000")] []).merged.build =
      .ok { tapeLength := 50000, startOffset := 40000 } := toOption_eq_some_iff.1 (by decide +kernel)
  exact ⟨Environment.converts_of_config hconfig, rfl, Draft.exists_build_iff.1 ⟨_, hwhole⟩, rfl⟩

end Arguments

end Brainfuck.CommandLine
