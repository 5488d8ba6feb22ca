/-
Options laid over options.

What a layer gives is a function: a value for an option, or none. `Draft.under` lays it over a draft.

- `Draft.latest`: what a list of changes gives; of two changes of one option the later counts. `Draft.setAll_eq_under`:
  making the changes one after another is laying over what they give.
- `Config.replace_of_reads`: changing a configuration is building what the changes, laid over the draft it came from,
  give; how that draft spelled its policy does not matter.
- `Config.entryValue?`: what the entries of a mapping give. `Config.checkKeys_eq_ok_iff`, `Config.overlay_eq`: a
  mapping whose keys all name options is laid over a configuration.
- `Environment.value?`: what the variables give. `Environment.config_of_converts`: an environment whose variables can
  all be read is laid over a configuration.
- `Config.ofNamed_assignment`: a configuration from named options, one value for each, is built from just these.
-/
import Brainfuck.Config.Environment
import Brainfuck.Config.Overlay
import Brainfuck.Proofs.Validation

namespace Brainfuck

/-! ## Changes -/

namespace Draft

/-- the draft with what a layer gives laid over it -/
def under (d : Draft) (layer : Setting → Option Value) : Draft := ⟨fun s => (layer s).getD (d.value s)⟩

/-- what changes give: the last change of an option counts -/
def latest (changes : List (Setting × Value)) (s : Setting) : Option Value := changes.reverse.lookup s

theorem latest_cons (t : Setting) (v : Value) (rest : List (Setting × Value)) (s : Setting) :
    latest ((t, v) :: rest) s = (latest rest s).or (if s = t then some v else none) := by
  rw [latest, List.reverse_cons, List.lookup_append, latest]
  by_cases h : s = t
  · simp [h]
  · have hbeq : (s == t) = false := beq_eq_false_iff_ne.2 h
    simp [List.lookup_cons, h, hbeq]

theorem setAll_eq_under (d : Draft) (changes : List (Setting × Value)) :
    d.setAll changes = d.under (latest changes) := by
  induction changes generalizing d with
  | nil => rfl
  | cons change rest ih =>
    obtain ⟨t, v⟩ := change
    have hset : d.setAll ((t, v) :: rest) = (d.set t v).setAll rest := rfl
    rw [hset, ih]
    refine congrArg Draft.mk (funext fun s => ?_)
    rw [latest_cons]
    cases hrest : latest rest s with
    | some w => rfl
    | none => by_cases h : s = t <;> simp [set, h]

theorem Alike.under {d d' : Draft} (h : d.Alike d') (layer : Setting → Option Value) :
    (d.under layer).Alike (d'.under layer) := by
  constructor
  · intro s hs
    simp only [Draft.under, h.value_eq s hs]
  · cases hlayer : layer .eofPolicy with
    | some v => simp only [policy, Draft.under, hlayer, Option.getD_some]
    | none =>
      have hpolicy := h.policy_eq
      simp only [policy] at hpolicy
      simpa only [policy, Draft.under, hlayer, Option.getD_none] using hpolicy

/-- what is given for options that are all different, each of them once or not at all -/
theorem latest_filterMap {κ : Type} (key : κ → Setting) (f : κ → Option Value) {ks : List κ} (h : (ks.map key).Nodup)
    (s : Setting) :
    latest (ks.filterMap fun k => (f k).map (key k, ·)) s = (ks.find? fun k => key k = s).bind f := by
  induction ks with
  | nil => rfl
  | cons k ks ih =>
    obtain ⟨hnew, hrest⟩ := List.nodup_cons.1 h
    have ih := ih hrest
    by_cases hk : key k = s
    · -- the option comes no second time
      have hnone : ks.find? (fun k => key k = s) = none := by
        rw [List.find?_eq_none]
        intro k' hk' heq
        exact hnew (List.mem_map.2 ⟨k', hk', (of_decide_eq_true heq).trans hk.symm⟩)
      rw [hnone, Option.bind_none] at ih
      rw [List.find?_cons_of_pos (by simpa using hk), Option.bind_some]
      cases hf : f k with
      | none => simpa [hf] using ih
      | some v => simp [hf, latest_cons, ih, hk]
    · rw [List.find?_cons_of_neg (by simpa using hk), ← ih]
      cases hf : f k with
      | none => simp [hf]
      | some v => simp [hf, latest_cons, Ne.symm hk]

end Draft

namespace Config

theorem replace_eq (c : Config) (changes : List (Setting × Value)) :
    c.replace changes = (c.draft.under (Draft.latest changes)).build := by
  rw [replace, Draft.setAll_eq_under]

/-- a layer over a configuration is as good as one over the draft that it was built from -/
theorem build_under_of_reads {c : Config} {d : Draft} (h : d.Reads c.options) (layer : Setting → Option Value) :
    (c.draft.under layer).build = (d.under layer).build :=
  (h.alike.under layer).build_eq.symm

theorem replace_of_reads {c : Config} {d : Draft} (h : d.Reads c.options) (changes : List (Setting × Value)) :
    c.replace changes = (d.under (Draft.latest changes)).build := by
  rw [replace_eq, build_under_of_reads h]

theorem reads_draft (c : Config) : c.draft.Reads c.options := Draft.typed_eq_ok_iff.1 c.typed_draft

/-! ## Mappings -/

/-- what the entries of a mapping give: the value under the name of an option, where the last entry counts -/
def entryValue? (entries : List (Value × Value)) (s : Setting) : Option Value :=
  Value.find? (.ofString s.name) entries.reverse

theorem entryValue?_cons (k v : Value) (rest : List (Value × Value)) (s : Setting) : entryValue? ((k, v) :: rest) s =
    (entryValue? rest s).or (if k.sameKey (.ofString s.name) then some v else none) := by
  rw [entryValue?, List.reverse_cons, Value.find?, List.find?_append, Option.map_or, entryValue?, Value.find?]
  by_cases h : k.sameKey (.ofString s.name) <;> simp [h]

end Config

theorem Setting.name_injective {s t : Setting} (h : s.name = t.name) : s = t := by
  cases s <;> cases t <;> first | rfl | exact absurd h (by decide)

theorem Setting.mem_all (s : Setting) : s ∈ Setting.all := by
  cases s <;> decide

theorem Setting.ofText?_eq_some_iff {t : Text} {s : Setting} : Setting.ofText? t = some s ↔ t = .ofString s.name := by
  constructor
  · intro h
    have hfound := List.find?_some h
    exact (of_decide_eq_true hfound).symm
  · rintro rfl
    have hnotNone : Setting.ofText? (.ofString s.name) ≠ none := by
      intro h
      exact List.find?_eq_none.1 h s s.mem_all (decide_eq_true rfl)
    obtain ⟨s', hs'⟩ := Option.ne_none_iff_exists'.1 hnotNone
    have hfound := List.find?_some hs'
    have hname : Text.ofString s'.name = .ofString s.name := of_decide_eq_true hfound
    rw [hs', Setting.name_injective (Text.ofString_injective hname)]

theorem Value.sameKey_text_iff {k : Value} {t : Text} : k.sameKey (.text t) = true ↔ k = .text t := by
  cases k <;> simp [sameKey, number?]

theorem Value.text_sameKey_iff {k : Value} {t : Text} : (Value.text t).sameKey k = true ↔ k = .text t := by
  cases k <;> simp [sameKey, number?, eq_comm]

namespace Config

theorem settingOfKey?_eq_some_iff {k : Value} {s : Setting} : settingOfKey? k = some s ↔ k = .ofString s.name := by
  cases k with
  | text t => simp [settingOfKey?, Setting.ofText?_eq_some_iff, Value.ofString]
  | _ => simp [settingOfKey?, Value.ofString]

/-- the key names an option -/
def Known (k : Value) : Prop := ∃ s, settingOfKey? k = some s

theorem known_iff {k : Value} : Known k ↔ ∃ s : Setting, k = .ofString s.name :=
  exists_congr fun _ => settingOfKey?_eq_some_iff

/-- the options that entries set, in their order -/
abbrev settings (entries : List (Value × Value)) : List (Setting × Value) :=
  entries.filterMap fun e => (settingOfKey? e.1).map (·, e.2)

/-- the options of a mapping are what its entries give -/
theorem latest_settings (entries : List (Value × Value)) (s : Setting) :
    Draft.latest (settings entries) s = entryValue? entries s := by
  induction entries with
  | nil => rfl
  | cons e rest ih =>
    obtain ⟨k, v⟩ := e
    rw [entryValue?_cons, ← ih]
    cases hk : settingOfKey? k with
    | none =>
      have hother : ¬ k.sameKey (.ofString s.name) = true := by
        intro h
        rw [settingOfKey?_eq_some_iff.2 (Value.sameKey_text_iff.1 h)] at hk
        cases hk
      simp [hk, hother]
    | some t =>
      have hname : k.sameKey (.ofString s.name) = true ↔ s = t := by
        rw [settingOfKey?_eq_some_iff.1 hk]
        refine Value.sameKey_text_iff.trans ?_
        simp only [Value.ofString, Value.text.injEq]
        exact ⟨fun h => (Setting.name_injective (Text.ofString_injective h)).symm, fun h => by rw [h]⟩
      simp [hk, Draft.latest_cons, hname]

theorem distinct_concat (keys : List Value) (k : Value) : distinct (keys ++ [k]) =
    if (distinct keys).any (·.sameKey k) then distinct keys else distinct keys ++ [k] := by
  rw [distinct, List.foldl_append]
  rfl

theorem mem_of_mem_distinct {keys : List Value} {k : Value} (h : k ∈ distinct keys) : k ∈ keys := by
  induction keys using List.reverseRecOn with
  | nil => exact h
  | append_singleton keys k' ih =>
    rw [distinct_concat] at h
    split_ifs at h
    · exact List.mem_append_left _ (ih h)
    · rcases List.mem_append.1 h with h | h
      · exact List.mem_append_left _ (ih h)
      · exact List.mem_append_right _ h

/-- of each key one is kept that is the same -/
theorem exists_mem_distinct {keys : List Value} {k : Value} (h : k ∈ keys) :
    ∃ k' ∈ distinct keys, k' = k ∨ k'.sameKey k = true := by
  induction keys using List.reverseRecOn with
  | nil => cases h
  | append_singleton keys k' ih =>
    rw [distinct_concat]
    rcases List.mem_append.1 h with h | h
    · obtain ⟨k'', hk'', hsame⟩ := ih h
      refine ⟨k'', ?_, hsame⟩
      split_ifs
      · exact hk''
      · exact List.mem_append_left _ hk''
    · obtain rfl := List.mem_singleton.1 h
      split_ifs with hany
      · obtain ⟨k'', hk'', hsame⟩ := List.any_eq_true.1 hany
        exact ⟨k'', hk'', .inr hsame⟩
      · exact ⟨k, List.mem_append_right _ (List.mem_singleton_self k), .inl rfl⟩

/-- the keys that name no option -/
def unknown (keys : List Value) : List Value := (distinct keys).filter fun k => (settingOfKey? k).isNone

theorem not_known_iff {k : Value} : ¬ Known k ↔ (settingOfKey? k).isNone = true := by
  rw [Known, ← Option.isSome_iff_exists, Option.isNone_iff_eq_none, Option.not_isSome_iff_eq_none]

theorem unknown_eq_nil_iff {keys : List Value} : unknown keys = [] ↔ ∀ k ∈ keys, Known k := by
  rw [unknown, List.filter_eq_nil_iff]
  constructor
  · intro h k hk
    obtain ⟨k', hk', hsame⟩ := exists_mem_distinct hk
    have hknown : Known k' := not_not.1 (mt not_known_iff.1 (h k' hk'))
    rcases hsame with rfl | hsame
    · exact hknown
    · -- a key that is the same as the name of an option is this name
      obtain ⟨s, rfl⟩ := known_iff.1 hknown
      rw [Value.text_sameKey_iff.1 hsame]
      exact hknown
  · intro h k hk hnone
    exact not_known_iff.2 hnone (h k (mem_of_mem_distinct hk))

theorem checkKeys_of_unknown {keys : List Value} (h : unknown keys ≠ []) : checkKeys keys =
    match Value.sorted (unknown keys) with
    | .ok sorted => .error (.unknownOptions sorted)
    | .error e => .error (.unorderedOptions e) := by
  unfold checkKeys
  split
  · rename_i hnil
    exact absurd hnil h
  · rfl

theorem checkKeys_of_known {keys : List Value} (h : ∀ k ∈ keys, Known k) : checkKeys keys = .ok () := by
  unfold checkKeys
  split
  · rfl
  · rename_i hne
    exact absurd (unknown_eq_nil_iff.2 h) hne

theorem checkKeys_eq_ok_iff {keys : List Value} : checkKeys keys = .ok () ↔ ∀ k ∈ keys, Known k := by
  refine ⟨fun h => ?_, checkKeys_of_known⟩
  by_contra hunknown
  rw [checkKeys_of_unknown (mt unknown_eq_nil_iff.1 hunknown)] at h
  split at h <;> cases h

/-- a mapping whose keys all name options is laid over a configuration like over the draft that it was built from -/
theorem overlay_eq {c : Config} {d : Draft} (hd : d.Reads c.options) {entries : List (Value × Value)}
    (hknown : ∀ e ∈ entries, Known e.1) : c.overlay entries = (d.under (entryValue? entries)).build := by
  have hkeys : checkKeys (entries.map Prod.fst) = .ok () := by
    rw [checkKeys_eq_ok_iff]
    intro k hk
    obtain ⟨e, he, rfl⟩ := List.mem_map.1 hk
    exact hknown e he
  rw [overlay, hkeys]
  refine (replace_of_reads hd _).trans ?_
  rw [funext (latest_settings entries)]

/-! ## Named options -/

/-- named options as the entries of a mapping -/
def named (options : List (Text × Value)) : List (Value × Value) := options.map fun e => (.text e.1, e.2)

theorem settingsOf_of_known {options : List (Text × Value)} (h : ∀ e ∈ named options, Known e.1) :
    settingsOf options = .ok (settings (named options)) := by
  induction options with
  | nil => rfl
  | cons e rest ih =>
    obtain ⟨name, v⟩ := e
    obtain ⟨⟨s, hs⟩, hrest⟩ := List.forall_mem_cons.1 h
    have hname : Setting.ofText? name = some s := hs
    simp only [settingsOf, hname, ih hrest, Except.map]
    simp [named, hs]

theorem known_of_settingsOf {options : List (Text × Value)} {changes : List (Setting × Value)}
    (h : settingsOf options = .ok changes) : ∀ e ∈ named options, Known e.1 := by
  induction options generalizing changes with
  | nil => simp [named]
  | cons e rest ih =>
    obtain ⟨name, v⟩ := e
    simp only [settingsOf] at h
    split at h
    · cases h
    · rename_i s hs
      cases hrest : settingsOf rest with
      | error e => simp [hrest, Except.map] at h
      | ok changes' => exact List.forall_mem_cons.2 ⟨⟨s, hs⟩, ih hrest⟩

/-- what named options give is laid over the configuration that is changed -/
theorem build_of_settingsOf {c c' : Config} {options : List (Text × Value)}
    (h : settingsOf options >>= c.replace = .ok c') :
    (c.draft.under (entryValue? (named options))).build = .ok c' := by
  obtain ⟨changes, hchanges, hreplace⟩ := bind_eq_ok_iff.1 h
  have hsettings := settingsOf_of_known (known_of_settingsOf hchanges)
  obtain rfl := Except.ok.inj (hsettings.symm.trans hchanges)
  rw [replace_eq, funext (latest_settings _)] at hreplace
  exact hreplace

end Config

/-- each option with its value in the draft -/
def Draft.assignment (d : Draft) : List (Text × Value) := Setting.all.map fun s => (.ofString s.name, d.value s)

/-- a configuration from named options, one value for each, is built from just these -/
theorem Config.ofNamed_assignment (d : Draft) : Config.ofNamed d.assignment = d.build := by
  have hknown : ∀ e ∈ named d.assignment, Known e.1 := by
    intro e he
    simp only [named, Draft.assignment, List.map_map, List.mem_map] at he
    obtain ⟨s, -, rfl⟩ := he
    exact ⟨s, settingOfKey?_eq_some_iff.2 rfl⟩
  have hunder : (default : Config).draft.under (entryValue? (named d.assignment)) = d := by
    refine congrArg Draft.mk (funext fun s => ?_)
    cases s <;> rfl
  rw [ofNamed, settingsOf_of_known hknown]
  refine (replace_eq _ _).trans ?_
  rw [funext (latest_settings _), hunder]

/-! ## Variables -/

namespace Environment

/-- every variable that is set and not empty can be read -/
def Converts (env : Environment) : Prop := ∀ v raw, Variable.raw? v env = some raw → ∃ value, v.read raw = .ok value

/-- the value that a variable spells, if it is set and not empty -/
def valueOf? (env : Environment) (v : Variable) : Option Value := do
  let raw ← v.raw? env
  (v.read raw).toOption

/-- what the variables give -/
def value? (env : Environment) (s : Setting) : Option Value := do
  let v ← Variable.all.find? fun v => v.setting = s
  env.valueOf? v

variable {env : Environment}

theorem changesOf_of_converts {vs : List Variable} (h : env.Converts) :
    env.changesOf vs = .ok (vs.filterMap fun v => (env.valueOf? v).map (v.setting, ·)) := by
  induction vs with
  | nil => rfl
  | cons v rest ih =>
    cases hraw : v.raw? env with
    | none => simp [changesOf, valueOf?, hraw, ih]
    | some raw =>
      obtain ⟨value, hvalue⟩ := h v raw hraw
      simp [changesOf, valueOf?, hraw, hvalue, ih, Except.map, Except.toOption]

theorem reads_of_changesOf {vs : List Variable} {changes : List (Setting × Value)}
    (h : env.changesOf vs = .ok changes) :
    ∀ v ∈ vs, ∀ raw, Variable.raw? v env = some raw → ∃ value, v.read raw = .ok value := by
  induction vs generalizing changes with
  | nil => simp
  | cons v rest ih =>
    simp only [changesOf] at h
    split at h
    · rename_i hraw
      refine List.forall_mem_cons.2 ⟨fun raw h' => ?_, ih h⟩
      rw [hraw] at h'
      cases h'
    · rename_i raw hraw
      split at h
      · cases h
      · rename_i value hvalue
        cases hrest : env.changesOf rest with
        | error e => simp [hrest, Except.map] at h
        | ok changes' =>
          refine List.forall_mem_cons.2 ⟨fun raw' h' => ?_, ih hrest⟩
          obtain rfl := Option.some.inj (hraw.symm.trans h')
          exact ⟨value, hvalue⟩

theorem converts_of_changes {changes : List (Setting × Value)} (h : env.changes = .ok changes) : env.Converts := by
  intro v raw hraw
  have hmem : v ∈ Variable.all := by cases v <;> decide
  exact reads_of_changesOf h v hmem raw hraw

/-- an environment whose variables can all be read is laid over a configuration like over the draft that it was built
from -/
theorem config_of_converts (h : env.Converts) {c : Config} {d : Draft} (hd : d.Reads c.options) :
    env.config c = ((d.under env.value?).build).mapError .config := by
  have hdistinct : (Variable.all.map Variable.setting).Nodup := by decide
  have hlatest : Draft.latest (Variable.all.filterMap fun v => (env.valueOf? v).map (v.setting, ·)) = env.value? :=
    funext (Draft.latest_filterMap Variable.setting env.valueOf? hdistinct)
  rw [config, changes, changesOf_of_converts h, ok_bind, Config.replace_of_reads hd, hlatest]
  cases (d.under env.value?).build <;> rfl

theorem converts_of_config {base c : Config} (h : env.config base = .ok c) : env.Converts := by
  obtain ⟨changes, hchanges, -⟩ := bind_eq_ok_iff.1 h
  exact converts_of_changes hchanges

end Environment

end Brainfuck
