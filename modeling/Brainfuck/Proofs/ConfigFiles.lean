/-
What comes of a configuration file.

- `Config.Unusable`: a value in the section for options that is no mapping and is not refused as one that is bad: a
  number has no elements, and the elements of a list may be no keys, or keys without an order.
  `Config.isTypeError_of_overlayValue`: of the values that JSON can spell, exactly these fail for their type.
- `Config.TooDeep`: a document whose lists and mappings are nested deeper than the stack allows.
- `Config.isInvalidValue_of_load`: these two are no invalid values. Whatever else is wrong with a file is wrong with a
  value in it.
- `CommandLine.run_of_load`: a run that comes as far as its configuration file and does not accept it is over.
- `config_file_is_answered`: the whole account. `CommandLine.unusable_section_escapes` and
  `CommandLine.deep_document_escapes` are files that are neither accepted nor refused.
-/
import Brainfuck.CommandLine.Run
import Brainfuck.Proofs.JsonReading
import Brainfuck.Proofs.KeyOrder
import Brainfuck.Proofs.Sections
import Brainfuck.Proofs.Utf8

namespace Brainfuck

open CommandLine (SettingsError Surroundings)

namespace Config

/-! ## Sections -/

/-- a value that cannot be taken for a mapping of options, and not for a bad one either -/
inductive Unusable : Value → Prop where
  /-- a truth value or a number that is not zero -/
  | number {v : Value} (hkind : v.kind? = some .number) (h : v.isTruthy = true) : Unusable v
  /-- a list with a list or a mapping in it -/
  | container {items : List Value} {v : Value} (hv : v ∈ items) (hkind : v.kind? = none) : Unusable (.list items)
  /-- a list with elements of different kinds that name no option -/
  | mixed {items : List Value} {a b : Value} (ha : a ∈ items) (hb : b ∈ items) (hak : ¬ Known a) (hbk : ¬ Known b)
      (hkinds : a.kind? ≠ b.kind?) : Unusable (.list items)

theorem Unusable.isTruthy {v : Value} (h : Unusable v) : v.isTruthy = true := by
  have hnonempty : ∀ {items : List Value} {w : Value}, w ∈ items → (Value.list items).isTruthy = true := by
    intro items w hw
    simpa [Value.isTruthy] using List.ne_nil_of_mem hw
  cases h with
  | number _ h => exact h
  | container hv _ => exact hnonempty hv
  | mixed ha _ _ _ _ => exact hnonempty ha

theorem unusable_list_iff {items : List Value} (hkeys : ∀ v ∈ items, v.kind?.isSome = true) :
    Unusable (.list items) ↔ ¬ ∃ s, Value.sorted (unknown items) = .ok s := by
  rw [sorted_unknown_eq_ok_iff hkeys]
  constructor
  · intro h hall
    cases h with
    | number hkind _ => cases hkind
    | container hv hkind => simpa [hkind] using hkeys _ hv
    | mixed ha hb hak hbk hkinds => exact hkinds (hall _ ha _ hb hak hbk)
  · intro h
    simp only [not_forall] at h
    obtain ⟨a, ha, b, hb, hak, hbk, hkinds⟩ := h
    exact .mixed ha hb hak hbk hkinds

/-- keys are refused for their type if they cannot be sorted -/
theorem isTypeError_of_checkKeys {keys : List Value} {e : ConfigError} (h : checkKeys keys = .error e) :
    e.isTypeError = true ↔ ¬ ∃ s, Value.sorted (unknown keys) = .ok s := by
  have hunknown : unknown keys ≠ [] := by
    intro hnil
    rw [checkKeys_of_known (unknown_eq_nil_iff.1 hnil)] at h
    cases h
  rw [checkKeys_of_unknown hunknown] at h
  cases hsorted : Value.sorted (unknown keys) with
  | ok s =>
    rw [hsorted] at h
    cases h
    simp [ConfigError.isTypeError]
  | error flaw =>
    rw [hsorted] at h
    cases h
    simp [ConfigError.isTypeError]

theorem failsForValues_checkKeys {keys : List Value} {k : Value.Kind} (h : ∀ a ∈ keys, a.kind? = some k) :
    Draft.FailsForValues (checkKeys keys) := by
  intro e he
  rw [← Bool.not_eq_true, isTypeError_of_checkKeys he, not_not,
    sorted_unknown_eq_ok_iff fun a ha => by rw [h a ha, Option.isSome_some]]
  intro a ha b hb _ _
  rw [h a ha, h b hb]

theorem failsForValues_overlay {c : Config} {entries : List (Value × Value)} (h : ∀ e ∈ entries, ∃ t, e.1 = .text t) :
    Draft.FailsForValues (c.overlay entries) := by
  have hkeys : ∀ k ∈ entries.map Prod.fst, k.kind? = some .text := by
    intro k hk
    obtain ⟨e, he, rfl⟩ := List.mem_map.1 hk
    obtain ⟨t, ht⟩ := h e he
    rw [ht, Value.kind?]
  exact .bind (failsForValues_checkKeys hkeys) fun _ => Draft.failsForValues_build _

theorem unhashable?_eq_none_iff {v : Value} (hv : v.IsJson) : unhashable? v = none ↔ v.kind?.isSome = true := by
  cases hv <;> simp [unhashable?, Value.kind?]

/-- a collection of keys is refused for its type if the keys cannot be sorted -/
theorem isTypeError_of_elements {c : Config} {elements : List Value} {e : ConfigError}
    (hkeys : ∀ a ∈ elements, unhashable? a = none) (h : Collected c elements (.error e)) :
    e.isTypeError = true ↔ ¬ ∃ s, Value.sorted (unknown elements) = .ok s := by
  cases h with
  | unhashable ha hname => cases (hkeys _ ha).symm.trans hname
  | refused _ h => exact isTypeError_of_checkKeys h
  | notPair _ hknown =>
    -- the keys all name options, so none is left to be sorted
    have hsorted : Value.sorted (unknown elements) = .ok [] := by
      rw [unknown_eq_nil_iff.2 (checkKeys_eq_ok_iff.1 hknown)]
      rfl
    refine iff_of_false ?_ (not_not.2 ⟨_, hsorted⟩)
    simp [ConfigError.isTypeError]

/-- a text is taken for the keys that its characters are -/
theorem isTypeError_of_text {c : Config} {t : Text} {e : ConfigError} (h : c.overlayValue (.text t) = .error e) :
    e.isTypeError = false := by
  have hletters : ∀ a ∈ t.map fun p => Value.text [p], unhashable? a = none ∧ a.kind? = some .text := by
    intro a ha
    obtain ⟨p, -, rfl⟩ := List.mem_map.1 ha
    exact ⟨rfl, rfl⟩
  have hcollected := collected_overlayValue c (v := .text t) (by simp) rfl
  rw [h] at hcollected
  rw [← Bool.not_eq_true, isTypeError_of_elements (fun a ha => (hletters a ha).1) hcollected, not_not,
    sorted_unknown_eq_ok_iff fun a ha => by rw [(hletters a ha).2, Option.isSome_some]]
  intro a ha b hb _ _
  rw [(hletters a ha).2, (hletters b hb).2]

theorem isTypeError_of_list {c : Config} {items : List Value} {e : ConfigError} (hitems : ∀ v ∈ items, v.IsJson)
    (h : c.overlayValue (.list items) = .error e) : e.isTypeError = true ↔ Unusable (.list items) := by
  have hcollected := collected_overlayValue c (v := .list items) (by simp) rfl
  rw [h] at hcollected
  by_cases hkeys : ∀ a ∈ items, unhashable? a = none
  · rw [isTypeError_of_elements hkeys hcollected, unusable_list_iff]
    exact fun a ha => (unhashable?_eq_none_iff (hitems a ha)).1 (hkeys a ha)
  · cases hcollected with
    | @unhashable a name ha hname =>
      have hkind : a.kind? = none := by
        rw [← Option.not_isSome_iff_eq_none, ← unhashable?_eq_none_iff (hitems a ha), hname]
        exact Option.some_ne_none name
      exact iff_of_true rfl (.container ha hkind)
    | refused hhash _ => exact absurd hhash hkeys
    | notPair hhash _ => exact absurd hhash hkeys

/-- of the values that JSON can spell and that are not empty, the unusable ones fail for their type -/
theorem isTypeError_of_overlayValue {c : Config} {v : Value} {e : ConfigError} (hv : v.IsJson)
    (htruthy : v.isTruthy = true) (h : c.overlayValue v = .error e) : e.isTypeError = true ↔ Unusable v := by
  cases hv with
  | null => cases htruthy
  | bool b =>
    cases h
    exact iff_of_true rfl (.number rfl htruthy)
  | int n =>
    cases h
    exact iff_of_true rfl (.number rfl htruthy)
  | float x =>
    cases h
    exact iff_of_true rfl (.number rfl htruthy)
  | text t =>
    refine iff_of_false (Bool.not_eq_true _ ▸ isTypeError_of_text h) ?_
    intro hunusable
    cases hunusable with
    | number hkind _ => cases hkind
  | list hitems => exact isTypeError_of_list hitems h
  | mapping hkeys _ =>
    refine iff_of_false (Bool.not_eq_true _ ▸ failsForValues_overlay hkeys e h) ?_
    intro hunusable
    cases hunusable with
    | number hkind _ => cases hkind

/-! ## Files -/

/-- what a JSON file can hold: only a mapping has a section for options -/
structure FileContent.IsJson (content : FileContent) : Prop where
  whole : content.whole.IsJson
  nested : ∀ v, content.nested = some v → v.IsJson ∧ ∃ entries, content.whole = .mapping entries

theorem isJson_of_parseFile {nesting : Nat} {path : Text} {bytes : List UInt8} {content : FileContent}
    (hpath : isYaml path = false) (h : parseFile nesting path bytes = .ok content) : content.IsJson := by
  simp only [parseFile, hpath, Bool.false_eq_true, if_false] at h
  split at h
  · cases h
  · split at h
    · cases h
    · rename_i entries hparse
      cases h
      have hjson := Json.isJson_of_parse hparse
      refine ⟨hjson, fun v hv => ⟨?_, entries, rfl⟩⟩
      obtain ⟨e, he, rfl⟩ := Option.map_eq_some_iff.1 hv
      cases hjson with
      | mapping _ hvalues => exact hvalues e (List.mem_of_find?_eq_some he)
    · rename_i hparse
      cases h
      exact ⟨Json.isJson_of_parse hparse, by simp⟩

/-- bytes that spell a document whose lists and mappings are nested deeper than the stack allows -/
def TooDeep (nesting : Nat) (bytes : List UInt8) : Prop :=
  ∃ cs isMapping, Utf8.decode bytes = .ok cs ∧ Json.parse (universalLines cs) nesting = .error (.tooDeep isMapping)

/-- such a document has more opening brackets than may be nested -/
theorem TooDeep.exists_lt {nesting : Nat} {bytes : List UInt8} (h : TooDeep nesting bytes) :
    ∃ cs, Utf8.decode bytes = .ok cs ∧ nesting < (universalLines cs).countP Json.isOpening := by
  obtain ⟨cs, isMapping, hcs, hparse⟩ := h
  exact ⟨cs, hcs, Json.opening_of_tooDeep hparse⟩

/-- opening brackets, one more than may be nested -/
theorem parseFile_openings (nesting : Nat) {path : Text} (hpath : isYaml path = false) :
    parseFile nesting path (List.replicate (nesting + 1) 91) = .error (.json path (.tooDeep false)) := by
  have hspells : ∀ n, Utf8.Spells (List.replicate n 91) (List.replicate n '[') := by
    intro n
    induction n with
    | zero => exact .nil
    | succ n ih => exact .cons (Utf8.encodes_one (by decide)) ih
  have hlines : ∀ n, universalLines (List.replicate n '[') = List.replicate n '[' := by
    intro n
    induction n with
    | zero => rfl
    | succ n ih => exact congrArg ('[' :: ·) ih
  simp only [parseFile, hpath, Bool.false_eq_true, if_false, Utf8.decode_eq_ok_iff.2 (hspells _)]
  rw [hlines, Json.parse_openings]

theorem not_tooDeep_of_parseFile {nesting : Nat} {path : Text} {bytes : List UInt8} {content : FileContent}
    (hpath : isYaml path = false) (h : parseFile nesting path bytes = .ok content) : ¬ TooDeep nesting bytes := by
  rintro ⟨cs, isMapping, hcs, hdeep⟩
  simp only [parseFile, hpath, Bool.false_eq_true, if_false, hcs, hdeep] at h
  cases h

theorem isInvalidValue_of_parseFile {nesting : Nat} {path : Text} {bytes : List UInt8} {e : FileError}
    (hpath : isYaml path = false) (h : parseFile nesting path bytes = .error e) :
    (∀ flaw, e ≠ .path flaw) ∧ ((SettingsError.file e).isInvalidValue = false ↔ TooDeep nesting bytes) := by
  simp only [parseFile, hpath, Bool.false_eq_true, if_false] at h
  cases hcs : Utf8.decode bytes with
  | error flaw =>
    rw [hcs] at h
    cases h
    simp [SettingsError.isInvalidValue, TooDeep, hcs]
  | ok cs =>
    simp only [hcs] at h
    cases hparse : Json.parse (universalLines cs) nesting with
    | error flaw =>
      rw [hparse] at h
      cases h
      cases flaw <;> simp [SettingsError.isInvalidValue, TooDeep, hcs, hparse]
    | ok v =>
      rw [hparse] at h
      split at h <;> simp_all

theorem eq_notMapping_of_optionsOf {path : Text} {content : FileContent} {e : FileError}
    (h : optionsOf path content = .error e) : e = .notMapping path ∧ ∀ entries, content.whole ≠ .mapping entries := by
  unfold optionsOf at h
  split at h
  · cases h
  · cases h
  · cases h
  · rename_i _ _ hbare hnested
    cases h
    refine ⟨rfl, fun entries hentries => ?_⟩
    cases hsection : content.nested with
    | none => exact hbare entries hentries hsection
    | some v => exact hnested entries v hentries hsection

/-- what stands in the section for options of the file at a path -/
def sectionOf? (files : FileTree) (path : Text) : Option Value := do
  let bytes ← (files.read path).toOption
  let content ← (parseFile files.nesting path bytes).toOption
  content.nested

theorem isTypeError_of_options {path : Text} {base : Config} {content : FileContent} {v : Value} {e : ConfigError}
    (hcontent : content.IsJson) (hv : optionsOf path content = .ok v) (h : base.overlayValue v = .error e) :
    e.isTypeError = true ↔ ∃ w, content.nested = some w ∧ Unusable w := by
  have hempty : ∀ {e : ConfigError}, base.overlayValue (.mapping []) = .error e → ¬ e.isTypeError = true := by
    intro e h
    rw [failsForValues_overlay (by simp) e h]
    exact Bool.false_ne_true
  unfold optionsOf at hv
  split at hv
  · rename_i hnull
    cases hv
    refine iff_of_false (hempty h) ?_
    rintro ⟨w, hw, -⟩
    obtain ⟨-, entries, hentries⟩ := hcontent.nested w hw
    cases hnull.symm.trans hentries
  · rename_i entries hentries hnone
    cases hv
    have hwhole := hcontent.whole
    rw [hentries] at hwhole
    cases hwhole with
    | mapping hkeys _ =>
      refine iff_of_false (Bool.not_eq_true _ ▸ failsForValues_overlay hkeys e h) ?_
      rintro ⟨w, hw, -⟩
      cases hnone.symm.trans hw
  · rename_i w hentries hw
    have hw' : (∃ w, content.nested = some w ∧ Unusable w) ↔ Unusable w := by simp [hw]
    rw [hw']
    by_cases htruthy : w.isTruthy = true
    · obtain rfl : w = v := by simpa [htruthy] using hv
      exact isTypeError_of_overlayValue (hcontent.nested w hw).1 htruthy h
    · obtain rfl : .mapping [] = v := by simpa [htruthy] using hv
      exact iff_of_false (hempty h) fun hunusable => htruthy hunusable.isTruthy
  · cases hv

/-- what is wrong with a file that is read is wrong with a value, but for one that is too deep or has an unusable
section -/
theorem isInvalidValue_of_load {files : FileTree} {path : Text} {bytes : List UInt8} {base : Config} {e : FileError}
    (hpath : isYaml path = false) (hread : files.read path = .ok bytes) (h : load files path base = .error e) :
    (∀ flaw, e ≠ .path flaw) ∧
      ((SettingsError.file e).isInvalidValue = false ↔
        TooDeep files.nesting bytes ∨ ∃ v, sectionOf? files path = some v ∧ Unusable v) := by
  have hload : load files path base = parseFile files.nesting path bytes >>= fun content =>
      optionsOf path content >>= fun v => (base.overlayValue v).mapError .config := by
    rw [load, hread]
    rfl
  have hsection : sectionOf? files path = (parseFile files.nesting path bytes).toOption >>= FileContent.nested := by
    rw [sectionOf?, hread]
    rfl
  rw [hload] at h
  rw [hsection]
  rcases error_of_bind h with h | ⟨content, hcontent, h⟩
  · rw [h]
    obtain ⟨hpathless, hvalue⟩ := isInvalidValue_of_parseFile hpath h
    simp [hpathless, hvalue, Except.toOption]
  · have hjson := isJson_of_parseFile hpath hcontent
    rw [or_iff_right (not_tooDeep_of_parseFile hpath hcontent), hcontent, Except.toOption, Option.bind_eq_bind,
      Option.bind_some]
    rcases error_of_bind h with h | ⟨v, hv, h⟩
    · obtain ⟨rfl, hother⟩ := eq_notMapping_of_optionsOf h
      refine ⟨by simp, iff_of_false (by simp [SettingsError.isInvalidValue]) ?_⟩
      rintro ⟨v, hv, -⟩
      obtain ⟨-, entries, hentries⟩ := hjson.nested v hv
      exact hother entries hentries
    · cases hoverlay : base.overlayValue v with
      | ok c => simp [hoverlay, Except.mapError] at h
      | error flaw =>
        rw [hoverlay] at h
        cases h
        rw [← isTypeError_of_options hjson hv hoverlay]
        simp [SettingsError.isInvalidValue]

end Config

/-! ## The command line -/

namespace CommandLine

/-- a run comes as far as its configuration file: the path, the configuration of the environment, which the file is laid
over, and the messages up to there -/
def ComesTo (words : List Text) (release : Release) (s : Surroundings) (path : Text) (base : Config)
    (messages : String) : Prop :=
  ∃ a env code, Arguments.read words release = .ok a ∧ loadVariables s a.verbose = (messages, .ok env) ∧
    a.loadCode s.files = .ok code ∧ env.config default = .ok base ∧ a.configFile = some path

variable {words : List Text} {release : Release} {s : Surroundings}

/-- options that are not accepted end the run -/
theorem run_of_resolve_error {a : Arguments} {env : Environment} {code messages : String} {e : SettingsError}
    (hwords : Arguments.read words release = .ok a)
    (hvariables : loadVariables s a.verbose = (messages, .ok env)) (hcode : a.loadCode s.files = .ok code)
    (h : a.resolve env s.files = .error e) (patience : Nat) :
    run patience words s release = ⟨(settingsConclusion e).verdict, (settingsConclusion e).output,
      messages ++ (settingsConclusion e).messages, s.files⟩ := by
  have htask : a.task env s.files = .error (settingsConclusion e) := by
    simp only [Arguments.task, hcode, ok_bind, h, mapError_error, error_bind]
  have hplan : plan words s release = .error ((settingsConclusion e).after messages) := by
    simp only [plan, hwords, hvariables, mapError_ok, ok_bind, htask, mapError_error, error_bind]
  rw [run, hplan]
  rfl

/-- a file that is not accepted ends the run -/
theorem run_of_load {path : Text} {messages : String} {base : Config} {e : FileError}
    (hfile : ComesTo words release s path base messages) (h : Config.load s.files path base = .error e)
    (patience : Nat) : run patience words s release = ⟨(settingsConclusion (.file e)).verdict,
      (settingsConclusion (.file e)).output, messages ++ (settingsConclusion (.file e)).messages, s.files⟩ := by
  obtain ⟨a, env, code, hwords, hvariables, hcode, hbase, hpath⟩ := hfile
  have hresolve : a.resolve env s.files = .error (.file e) := by
    simp only [Arguments.resolve, Arguments.fileConfig, hbase, hpath, h, mapError_ok, mapError_error, ok_bind,
      error_bind]
  exact run_of_resolve_error hwords hvariables hcode hresolve patience

/-- nothing but a configuration file -/
def onlyFile (bytes : List UInt8) (nesting : Nat := 991) : Surroundings where
  environment := []
  files := { entries := [(["c.json"], .file bytes)], cwd := [], nesting }
  input := []
  elapsed := ""

theorem comesTo_onlyFile (bytes : List UInt8) (nesting : Nat) (release : Release) :
    ComesTo ["+", "--config", "c.json"] release (onlyFile bytes nesting) "c.json" default "" := by
  have hwords : Arguments.read ["+", "--config", "c.json"] release =
      .ok { code := some "+", config := some "c.json" } := by
    cases release <;> exact toOption_eq_some_iff.1 (by decide +kernel)
  have hbase : Environment.config [] default = .ok default := toOption_eq_some_iff.1 (by decide +kernel)
  exact ⟨_, [], "+", hwords, rfl, rfl, hbase, rfl⟩

end CommandLine

/-- **A configuration file is answered.** A file that is read as JSON is accepted over a base exactly if it is a
mapping of known options that are valid over it, and what is accepted keeps all rules. Any other file is refused for
something in it, and a run that has come to it ends with exit code 2 and the words of the refusal, unless the document
is nested too deep for the stack, or the section for options is unusable: then the error is none of a value, and it ends
the run as it is. Only a document with more opening brackets than may be nested is too deep. -/
theorem config_file_is_answered {s : Surroundings} {path : Text} {bytes : List UInt8} (base : Config)
    (hpath : Config.isYaml path = false) (hread : s.files.read path = .ok bytes) :
    (∀ c, Config.load s.files path base = .ok c ↔ ∃ es, Config.entriesOf? s.files path = some es ∧
        (∀ e ∈ es, Config.Known e.1) ∧ (base.draft.under (Config.entryValue? es)).Reads c.options) ∧
      (∀ c, Config.load s.files path base = .ok c → c.options.InRange) ∧
      (Config.TooDeep s.files.nesting bytes →
        ∃ cs, Utf8.decode bytes = .ok cs ∧ s.files.nesting < (universalLines cs).countP Json.isOpening) ∧
      ∀ e, Config.load s.files path base = .error e → (∀ flaw, e ≠ .path flaw) ∧
        ((SettingsError.file e).isInvalidValue = false ↔
          Config.TooDeep s.files.nesting bytes ∨
            ∃ v, Config.sectionOf? s.files path = some v ∧ Config.Unusable v) ∧
        ∀ words release messages patience, CommandLine.ComesTo words release s path base messages →
          CommandLine.run patience words s release = if (SettingsError.file e).isInvalidValue then
            ⟨.exit 2, [], messages ++ s!"Invalid configuration: {e.message}\n", s.files⟩
          else ⟨.escaped (.settings (.file e)), [], messages, s.files⟩ := by
  refine ⟨?_, fun c _ => c.inRange_options, Config.TooDeep.exists_lt, ?_⟩
  · intro c
    simp only [Config.load_eq_ok_iff, Draft.build_eq_ok_iff]
  · intro e h
    obtain ⟨hpathless, hvalue⟩ := Config.isInvalidValue_of_load hpath hread h
    refine ⟨hpathless, hvalue, fun words release messages patience hfile => ?_⟩
    rw [CommandLine.run_of_load hfile h patience, CommandLine.settingsConclusion]
    split
    · rfl
    · simp

/-- a truth value for the length of the tape -/
theorem config_file_is_answered_bad_length :
    ∃ (bytes : List UInt8) (e : FileError), Config.isYaml "c.json" = false ∧
      (CommandLine.onlyFile bytes).files.read "c.json" = .ok bytes ∧
      CommandLine.ComesTo ["+", "--config", "c.json"] .late (CommandLine.onlyFile bytes) "c.json" default "" ∧
      Config.load (CommandLine.onlyFile bytes).files "c.json" default = .error e ∧
      (SettingsError.file e).isInvalidValue = true ∧
      CommandLine.run 0 ["+", "--config", "c.json"] (CommandLine.onlyFile bytes) .late =
        ⟨.exit 2, [], "Invalid configuration: tape_length must be an integer, got True\n",
          (CommandLine.onlyFile bytes).files⟩ := by
  let bytes := Utf8.encode "\x7b\"interpreter\": \x7b\"tape_length\": true\x7d\x7d".toList
  have hpath : Config.isYaml "c.json" = false := by decide +kernel
  have hread : (CommandLine.onlyFile bytes).files.read "c.json" = .ok bytes := rfl
  have hfile := CommandLine.comesTo_onlyFile bytes 991 .late
  obtain ⟨e, he, hfacts⟩ : ∃ e, Config.load (CommandLine.onlyFile bytes).files "c.json" default = .error e ∧
      ((SettingsError.file e).isInvalidValue, e.message) = (true, "tape_length must be an integer, got True") :=
    mapError_eq_error_iff.1 (by decide +kernel)
  obtain ⟨hvalue, hmessage⟩ := Prod.mk.inj hfacts
  obtain ⟨-, -, -, hrefused⟩ := config_file_is_answered default hpath hread
  obtain ⟨-, -, hrun⟩ := hrefused e he
  have hrun := hrun _ _ _ 0 hfile
  rw [if_pos hvalue, hmessage] at hrun
  exact ⟨bytes, e, hpath, hread, hfile, he, hvalue, hrun⟩

namespace CommandLine

/-- a number in the section for options: an error of type ends the run, and nothing is said of a configuration that is
invalid -/
theorem unusable_section_escapes :
    ∃ (bytes : List UInt8) (e : FileError), bytes = Utf8.encode "\x7b\"interpreter\": 5\x7d".toList ∧
      Config.isYaml "c.json" = false ∧ (onlyFile bytes).files.read "c.json" = .ok bytes ∧
      Config.load (onlyFile bytes).files "c.json" default = .error e ∧ (SettingsError.file e).isInvalidValue = false ∧
      e.message = "'int' object is not iterable" ∧
      ∀ release, run 0 ["+", "--config", "c.json"] (onlyFile bytes) release =
        ⟨.escaped (.settings (.file e)), [], "", (onlyFile bytes).files⟩ := by
  let bytes := Utf8.encode "\x7b\"interpreter\": 5\x7d".toList
  obtain ⟨e, he, hfacts⟩ : ∃ e, Config.load (onlyFile bytes).files "c.json" default = .error e ∧
      ((SettingsError.file e).isInvalidValue, e.message) = (false, "'int' object is not iterable") :=
    mapError_eq_error_iff.1 (by decide +kernel)
  obtain ⟨htype, hmessage⟩ := Prod.mk.inj hfacts
  refine ⟨bytes, e, rfl, by decide +kernel, rfl, he, htype, hmessage, fun release => ?_⟩
  rw [run_of_load (comesTo_onlyFile bytes 991 release) he 0, settingsConclusion, htype]
  rfl

/-- opening brackets, one more than may be nested: the reader gives out, and its error ends the run -/
theorem deep_document_escapes (nesting : Nat) (release : Release) :
    let s := onlyFile (List.replicate (nesting + 1) 91) nesting
    ∃ e, Config.load s.files "c.json" default = .error e ∧
      e.message = "maximum recursion depth exceeded while decoding a JSON array from a unicode string" ∧
      run 0 ["+", "--config", "c.json"] s release = ⟨.escaped (.settings (.file e)), [], "", s.files⟩ := by
  intro s
  have hpath : Config.isYaml "c.json" = false := by decide +kernel
  have hread : s.files.read "c.json" = .ok (List.replicate (nesting + 1) 91) := rfl
  have hload : Config.load s.files "c.json" default = .error (.json "c.json" (.tooDeep false)) := by
    rw [Config.load, hread, mapError_ok, ok_bind]
    exact congrArg (· >>= _) (Config.parseFile_openings nesting hpath)
  refine ⟨_, hload, rfl, ?_⟩
  rw [run_of_load (comesTo_onlyFile _ nesting release) hload 0]
  rfl

end CommandLine

end Brainfuck
