/-
The laws of laying options over options.

- `Text.lt_iff`: the order of texts is the lexicographic order of the numbers of their code points, so it is linear.
  `Value.sorted_texts`: different texts are sorted into ascending order.
- `overriding d₁ d₂`: the options of two mappings in one, where those of the second count.
  `Config.entryValue?_overriding`: what it gives.
- `Config.replaceNamed_of_names`, `Config.overlay_of_names`: named options, changed or laid over, are laid over the
  draft of the configuration. From this the laws follow: `Config.overlay_toMapping`, `Config.overlay_eq_ofNamed`,
  `Config.replaceNamed_replaceNamed`.
- `Config.text_mem_unknown_iff`, `Config.exists_unknown_texts`: the names of no option in a mapping, each once.
- `overlays_compose`: a configuration is made again from its own mapping, alone or over any other; an overlay is one
  construction from the merged options; two changes in turn are one change; and whoever names an option that does not
  exist is told all such names in ascending order.
-/
import Brainfuck.Proofs.KeyOrder
import Brainfuck.Proofs.Provenance

namespace Brainfuck

/-! ## The order of texts -/

theorem CodePoint.toNat_injective : Function.Injective CodePoint.toNat := by
  -- no character has the number of a surrogate
  have hvalid : ∀ (c : Char) (i : Fin 2048), c.toNat ≠ 0xD800 + i.val := by
    intro c i h
    have hc : c.toNat.isValidChar := c.valid
    rw [h] at hc
    unfold Nat.isValidChar at hc
    omega
  intro a b h
  cases a with
  | char c =>
    cases b with
    | char d => exact congrArg char (Char.toNat_inj.1 h)
    | surrogate j => exact absurd h (hvalid c j)
  | surrogate i =>
    cases b with
    | char d => exact absurd h.symm (hvalid d i)
    | surrogate j => exact congrArg surrogate (Fin.ext (Nat.add_left_cancel h))

namespace Text

/-- the texts are in ascending order, and no two of them are the same -/
def Ascending (l : List Text) : Prop := l.Pairwise fun s t => lt s t = true

theorem lt_iff {s t : Text} : lt s t = true ↔ s.map CodePoint.toNat < t.map CodePoint.toNat := by
  induction s generalizing t with
  | nil => cases t <;> simp [lt]
  | cons a s ih =>
    cases t with
    | nil => simp [lt]
    | cons b t =>
      rw [lt, List.map_cons, List.map_cons, List.cons_lt_cons_iff]
      split_ifs with h
      · simp [h, ih]
      · simp [h]

theorem lt_trans {s t u : Text} (h : lt s t = true) (h' : lt t u = true) : lt s u = true :=
  lt_iff.2 ((lt_iff.1 h).trans (lt_iff.1 h'))

theorem lt_of_not_lt {s t : Text} (h : ¬ lt t s = true) (hne : s ≠ t) : lt s t = true := by
  rw [lt_iff, not_lt] at h
  exact lt_iff.2 (lt_of_le_of_ne h fun heq => hne (List.map_injective_iff.2 CodePoint.toNat_injective heq))

end Text

namespace Value

/-- a new text is put in its place among texts in ascending order -/
theorem insertSorted_texts {t : Text} {l : List Text} (hl : Text.Ascending l) (hnew : t ∉ l) :
    ∃ s, insertSorted (.text t) (l.map .text) = .ok (s.map .text) ∧ Text.Ascending s ∧ s.Perm (t :: l) := by
  induction l with
  | nil => exact ⟨[t], rfl, List.pairwise_singleton _ _, .refl _⟩
  | cons u l ih =>
    obtain ⟨hu, hl⟩ := List.pairwise_cons.1 hl
    obtain ⟨hne, hnew⟩ := not_or.1 (mt List.mem_cons.2 hnew)
    have hlt : Value.lt (.text u) (.text t) = .ok (Text.lt u t) := rfl
    rw [List.map_cons, insertSorted, hlt, ok_bind]
    by_cases hbefore : Text.lt u t = true
    · obtain ⟨s, hs, hascending, hperm⟩ := ih hl hnew
      rw [if_pos hbefore, hs]
      refine ⟨u :: s, rfl, List.pairwise_cons.2 ⟨fun w hw => ?_, hascending⟩, (hperm.cons u).trans (.swap t u l)⟩
      rcases List.mem_cons.1 (hperm.subset hw) with rfl | hw
      · exact hbefore
      · exact hu w hw
    · have htu := Text.lt_of_not_lt hbefore hne
      rw [if_neg hbefore]
      refine ⟨t :: u :: l, rfl, List.pairwise_cons.2 ⟨fun w hw => ?_, List.pairwise_cons.2 ⟨hu, hl⟩⟩, .refl _⟩
      rcases List.mem_cons.1 hw with rfl | hw
      · exact htu
      · exact Text.lt_trans htu (hu w hw)

/-- different texts are sorted into ascending order -/
theorem sorted_texts {l : List Text} (h : l.Nodup) :
    ∃ s, sorted (l.map .text) = .ok (s.map .text) ∧ Text.Ascending s ∧ s.Perm l := by
  induction l with
  | nil => exact ⟨[], rfl, .nil, .refl _⟩
  | cons t l ih =>
    obtain ⟨hnew, hrest⟩ := List.nodup_cons.1 h
    obtain ⟨r, hr, hascending, hperm⟩ := ih hrest
    obtain ⟨s, hs, hs', hperm'⟩ := insertSorted_texts hascending fun ht => hnew (hperm.subset ht)
    refine ⟨s, ?_, hs', hperm'.trans (hperm.cons t)⟩
    rw [List.map_cons, sorted, hr, ok_bind, hs]

end Value

/-! ## Mappings over mappings -/

/-- the options of two mappings in one: what the second gives overrides what the first gives -/
def overriding (d₁ d₂ : List (Text × Value)) : List (Text × Value) :=
  (d₁.filter fun e => !d₂.any (·.1 = e.1)) ++ d₂

/-- every name is that of an option -/
def NamesOptions (d : List (Text × Value)) : Prop := ∀ e ∈ d, ∃ s : Setting, e.1 = .ofString s.name

theorem NamesOptions.overriding {d₁ d₂ : List (Text × Value)} (h₁ : NamesOptions d₁) (h₂ : NamesOptions d₂) :
    NamesOptions (overriding d₁ d₂) := by
  intro e he
  rcases List.mem_append.1 he with he | he
  · exact h₁ e (List.mem_filter.1 he).1
  · exact h₂ e he

theorem Draft.under_under (d : Draft) (e₁ e₂ : Setting → Option Value) :
    (d.under e₁).under e₂ = d.under fun s => (e₂ s).or (e₁ s) := by
  refine congrArg Draft.mk (funext fun s => ?_)
  simp only [under]
  cases e₂ s <;> cases e₁ s <;> rfl

theorem Draft.namesOptions_assignment (d : Draft) : NamesOptions d.assignment := by
  intro e he
  obtain ⟨s, -, rfl⟩ := List.mem_map.1 he
  exact ⟨s, rfl⟩

namespace Config

theorem known_text_iff {t : Text} : Known (.text t) ↔ ∃ s : Setting, t = .ofString s.name := by
  rw [known_iff]
  refine exists_congr fun s => ?_
  rw [Value.ofString, Value.text.injEq]

theorem known_named_iff {d : List (Text × Value)} : (∀ e ∈ named d, Known e.1) ↔ NamesOptions d := by
  rw [named, List.forall_mem_map]
  exact forall₂_congr fun _ _ => known_text_iff

theorem entryValue?_append (es fs : List (Value × Value)) (s : Setting) :
    entryValue? (es ++ fs) s = (entryValue? fs s).or (entryValue? es s) := by
  simp only [entryValue?, Value.find?, List.reverse_append, List.find?_append, Option.map_or]

theorem entryValue?_named_cons (e : Text × Value) (d : List (Text × Value)) (s : Setting) :
    entryValue? (named (e :: d)) s =
      (entryValue? (named d) s).or (if e.1 = .ofString s.name then some e.2 else none) := by
  have hname : (Value.text e.1).sameKey (.ofString s.name) = true ↔ e.1 = .ofString s.name := by
    rw [Value.ofString, Value.sameKey_text_iff, Value.text.injEq]
  rw [named, List.map_cons, entryValue?_cons]
  simp only [hname, named]

/-- what is given for an option depends on the entries with its name only -/
theorem entryValue?_filter {d : List (Text × Value)} {s : Setting} {p : Text × Value → Bool}
    (h : ∀ e ∈ d, e.1 = .ofString s.name → p e = true) :
    entryValue? (named (d.filter p)) s = entryValue? (named d) s := by
  induction d with
  | nil => rfl
  | cons e d ih =>
    obtain ⟨he, hd⟩ := List.forall_mem_cons.1 h
    rw [entryValue?_named_cons, ← ih hd, List.filter_cons]
    by_cases hp : p e = true
    · rw [if_pos hp, entryValue?_named_cons]
    · rw [if_neg hp, if_neg (mt he hp), Option.or_none]

theorem ne_name_of_entryValue? {d : List (Text × Value)} {s : Setting} (h : entryValue? (named d) s = none) :
    ∀ e ∈ d, e.1 ≠ .ofString s.name := by
  induction d with
  | nil => simp
  | cons e d ih =>
    rw [entryValue?_named_cons, Option.or_eq_none_iff] at h
    exact List.forall_mem_cons.2 ⟨by simpa using h.2, ih h.1⟩

/-- the second mapping decides, as far as it gives something -/
theorem entryValue?_overriding (d₁ d₂ : List (Text × Value)) (s : Setting) :
    entryValue? (named (overriding d₁ d₂)) s = (entryValue? (named d₂) s).or (entryValue? (named d₁) s) := by
  have happend : named (overriding d₁ d₂) = named (d₁.filter fun e => !d₂.any (·.1 = e.1)) ++ named d₂ :=
    List.map_append
  rw [happend, entryValue?_append]
  cases h : entryValue? (named d₂) s with
  | some v => rfl
  | none =>
    rw [Option.none_or, Option.none_or]
    refine entryValue?_filter fun e _ hname => ?_
    rw [Bool.not_eq_true', ← Bool.not_eq_true, List.any_eq_true]
    rintro ⟨e', he', heq⟩
    exact ne_name_of_entryValue? h e' he' ((of_decide_eq_true heq).trans hname)

/-- the mapping of a draft gives all of it -/
theorem entryValue?_assignment (d : Draft) (s : Setting) : entryValue? (named d.assignment) s = some (d.value s) := by
  cases s <;> rfl

theorem toMapping_eq (c : Config) : c.toMapping = named c.draft.assignment := by
  rw [toMapping, named, Draft.assignment, List.map_map]
  rfl

theorem replace_of_names (c : Config) {d : List (Text × Value)} (h : NamesOptions d) :
    settingsOf d >>= c.replace = (c.draft.under (entryValue? (named d))).build := by
  rw [settingsOf_of_known (known_named_iff.2 h), ok_bind, replace_eq, funext (latest_settings _)]

theorem replaceNamed_of_names (c : Config) {d : List (Text × Value)} (h : NamesOptions d) :
    c.replaceNamed d = (c.draft.under (entryValue? (named d))).build := by
  have hown : ¬ d.any (isOwnName ·.1) = true := by
    intro hany
    obtain ⟨e, he, hself⟩ := List.any_eq_true.1 hany
    obtain ⟨s, hs⟩ := h e he
    have hname : s.name = "self" := Text.ofString_injective (hs.symm.trans (beq_iff_eq.1 hself))
    cases s <;> exact absurd hname (by decide)
  rw [replaceNamed, if_neg hown, c.replace_of_names h]

theorem overlay_of_names (c : Config) {d : List (Text × Value)} (h : NamesOptions d) :
    c.overlay (named d) = (c.draft.under (entryValue? (named d))).build :=
  overlay_eq c.reads_draft (known_named_iff.2 h)

/-- a configuration hides every other one under its own mapping -/
theorem overlay_toMapping (b c : Config) : b.overlay c.toMapping = .ok c := by
  have hown : b.draft.under (fun s => some (c.draft.value s)) = c.draft := rfl
  rw [c.toMapping_eq, b.overlay_of_names c.draft.namesOptions_assignment, funext (entryValue?_assignment _), hown,
    c.build_draft]

/-- an overlay is one construction -/
theorem overlay_eq_ofNamed (b : Config) {d : List (Text × Value)} (h : NamesOptions d) :
    b.overlay (named d) = ofNamed (overriding b.draft.assignment d) := by
  have hlayers : entryValue? (named (overriding b.draft.assignment d)) =
      fun s => some ((b.draft.under (entryValue? (named d))).value s) := by
    funext s
    rw [entryValue?_overriding, entryValue?_assignment, Option.or_some]
    rfl
  rw [b.overlay_of_names h, ofNamed, replace_of_names _ (b.draft.namesOptions_assignment.overriding h), hlayers]
  rfl

/-- two changes in turn are one change -/
theorem replaceNamed_replaceNamed {c c' : Config} {d₁ d₂ : List (Text × Value)} (h₁ : NamesOptions d₁)
    (h₂ : NamesOptions d₂) (hc' : c.replaceNamed d₁ = .ok c') :
    c'.replaceNamed d₂ = c.replaceNamed (overriding d₁ d₂) := by
  rw [c.replaceNamed_of_names h₁] at hc'
  rw [c'.replaceNamed_of_names h₂, c.replaceNamed_of_names (h₁.overriding h₂),
    build_under_of_reads (Draft.build_eq_ok_iff.1 hc'), Draft.under_under, funext (entryValue?_overriding d₁ d₂)]

/-! ## Names of no option -/

theorem mem_keys_iff {d : List (Text × Value)} {k : Value} :
    k ∈ (named d).map Prod.fst ↔ ∃ e ∈ d, Value.text e.1 = k := by
  rw [named, List.map_map, List.mem_map]
  rfl

theorem text_mem_unknown_iff {d : List (Text × Value)} {t : Text} :
    .text t ∈ unknown ((named d).map Prod.fst) ↔ (∃ v, (t, v) ∈ d) ∧ ∀ s : Setting, t ≠ .ofString s.name := by
  rw [← not_exists, ← known_text_iff]
  constructor
  · intro h
    obtain ⟨hk, hnot⟩ := mem_of_mem_unknown h
    obtain ⟨e, he, heq⟩ := mem_keys_iff.1 hk
    exact ⟨⟨e.2, Value.text.inj heq ▸ he⟩, hnot⟩
  · rintro ⟨⟨v, hv⟩, hnot⟩
    -- what is kept of a text is the text itself
    obtain ⟨k, hk, hsame⟩ := exists_mem_distinct (mem_keys_iff.2 ⟨(t, v), hv, rfl⟩)
    obtain rfl : k = .text t := hsame.elim id Value.sameKey_text_iff.1
    exact List.mem_filter.2 ⟨hk, not_known_iff.1 hnot⟩

/-- the names of no option among the keys of a mapping, each of them once -/
theorem exists_unknown_texts (d : List (Text × Value)) :
    ∃ names : List Text, unknown ((named d).map Prod.fst) = names.map .text ∧ names.Nodup := by
  have htexts : unknown ((named d).map Prod.fst) ∈ Set.range (List.map Value.text) := by
    rw [Set.range_list_map]
    intro k hk
    obtain ⟨e, -, rfl⟩ := mem_keys_iff.1 (mem_of_mem_unknown hk).1
    exact ⟨e.1, rfl⟩
  obtain ⟨names, hnames⟩ := htexts
  have hpairs : (unknown ((named d).map Prod.fst)).Pairwise fun a b => a.sameKey b = false :=
    (pairwise_distinct _).filter _
  rw [← hnames, List.pairwise_map] at hpairs
  exact ⟨names, hnames.symm, hpairs.imp fun hsame => by simpa [Value.sameKey] using hsame⟩

/-- all names of no option are reported together and in order -/
theorem overlay_of_unknown (b : Config) {d : List (Text × Value)} (h : ¬ NamesOptions d) : ∃ names : List Text,
    b.overlay (named d) = .error (.unknownOptions (names.map .text)) ∧ Text.Ascending names ∧
      ∀ t, t ∈ names ↔ (∃ v, (t, v) ∈ d) ∧ ∀ s : Setting, t ≠ .ofString s.name := by
  obtain ⟨kept, hkept, hnodup⟩ := exists_unknown_texts d
  obtain ⟨names, hsorted, hascending, hperm⟩ := Value.sorted_texts hnodup
  have hunknown : unknown ((named d).map Prod.fst) ≠ [] := by
    intro hnil
    exact h (known_named_iff.1 fun e he => unknown_eq_nil_iff.1 hnil _ (List.mem_map_of_mem he))
  refine ⟨names, ?_, hascending, fun t => ?_⟩
  · rw [overlay, checkKeys_of_unknown hunknown, hkept, hsorted]
    rfl
  · rw [← text_mem_unknown_iff, hkept, List.mem_map_of_injective fun _ _ => Value.text.inj, hperm.mem_iff]

theorem wording_unknownOptions (keys : List Value) : (ConfigError.unknownOptions keys).wording =
    s!"Unknown interpreter options: {Quoted.list (keys.map Value.quoted)}" := rfl

/-- texts can always be shown -/
theorem message_unknownOptions (names : List Text) : (ConfigError.unknownOptions (names.map .text)).message =
    s!"Unknown interpreter options: {Quoted.list (names.map Quoted.text)}" := by
  have hshowable : ∀ t : Text, (Value.text t).isShowable = true := fun _ => rfl
  have hquote : ∀ t : Text, (Value.text t).quoted = Quoted.text t := fun _ => rfl
  have hshown : (names.map Value.text).all Value.isShowable = true := by
    simp [List.all_eq_true, hshowable]
  have hquoted : (names.map Value.text).map Value.quoted = names.map Quoted.text := by
    simp [hquote]
  exact (if_pos hshown).trans ((wording_unknownOptions _).trans (by rw [hquoted]))

end Config

/-- **Overlays compose.** Every configuration is made again from its own mapping, alone or laid over any other
configuration. Laying named options over a configuration comes to the same as one construction from its own options
with these overriding them: the same configuration or the same error. If one change succeeds, then a second one after it
comes to the same as one change with both, where the second overrides the first. A mapping with a name of no option is
refused for its value, whatever else it has: all such names are listed, in ascending order and each of them once. -/
theorem overlays_compose :
    (∀ c : Config, c.toMapping = Config.named c.draft.assignment ∧ Config.ofNamed c.draft.assignment = .ok c ∧
      ∀ b : Config, b.overlay c.toMapping = .ok c) ∧
    (∀ (b : Config) (d : List (Text × Value)), NamesOptions d →
      b.overlay (Config.named d) = Config.ofNamed (overriding b.draft.assignment d)) ∧
    (∀ (c c' : Config) (d₁ d₂ : List (Text × Value)), NamesOptions d₁ → NamesOptions d₂ →
      c.replaceNamed d₁ = .ok c' → c'.replaceNamed d₂ = c.replaceNamed (overriding d₁ d₂)) ∧
    ∀ (b : Config) (d : List (Text × Value)), ¬ NamesOptions d → ∃ names : List Text,
      b.overlay (Config.named d) = .error (.unknownOptions (names.map .text)) ∧
        (ConfigError.unknownOptions (names.map .text)).isTypeError = false ∧
        (ConfigError.unknownOptions (names.map .text)).message =
          s!"Unknown interpreter options: {Quoted.list (names.map Quoted.text)}" ∧
        Text.Ascending names ∧
        ∀ t, t ∈ names ↔ (∃ v, (t, v) ∈ d) ∧ ∀ s : Setting, t ≠ .ofString s.name := by
  refine ⟨fun c => ?_, fun b d hd => b.overlay_eq_ofNamed hd, fun c c' d₁ d₂ => Config.replaceNamed_replaceNamed,
    fun b d hd => ?_⟩
  · exact ⟨c.toMapping_eq, (Config.ofNamed_assignment _).trans c.build_draft, fun b => b.overlay_toMapping c⟩
  · obtain ⟨names, herror, hascending, hmem⟩ := b.overlay_of_unknown hd
    exact ⟨names, herror, rfl, Config.message_unknownOptions names, hascending, hmem⟩

/-- a policy in capitals and a start, and then a tape too short for the start; and two unknown names beside a bad
value -/
theorem overlays_compose_short_tape :
    ∃ (c' : Config) (d₁ d₂ d : List (Text × Value)) (names : List Text),
      d₁ = [(.ofString "eof_policy", .ofString " VALUE\n"), (.ofString "start_offset", .int 4)] ∧
      d₂ = [(.ofString "tape_length", .int 4)] ∧
      d = [(.ofString "zeta", .null), (.ofString "tape_length", .bool true), (.ofString "Alpha", .int 3)] ∧
      NamesOptions d₁ ∧ NamesOptions d₂ ∧ (default : Config).replaceNamed d₁ = .ok c' ∧ c'.eofPolicy = .value ∧
      c'.replaceNamed d₂ = (default : Config).replaceNamed (overriding d₁ d₂) ∧
      c'.overlay (Config.named d₂) = Config.ofNamed (overriding c'.draft.assignment d₂) ∧
      ¬ NamesOptions d ∧ c'.overlay (Config.named d) = .error (.unknownOptions (names.map .text)) ∧
      Text.Ascending names ∧ .ofString "zeta" ∈ names := by
  let d₁ : List (Text × Value) :=
    [(.ofString "eof_policy", .ofString " VALUE\n"), (.ofString "start_offset", .int 4)]
  let d₂ : List (Text × Value) := [(.ofString "tape_length", .int 4)]
  let d : List (Text × Value) :=
    [(.ofString "zeta", .null), (.ofString "tape_length", .bool true), (.ofString "Alpha", .int 3)]
  have h₁ : NamesOptions d₁ := Config.known_named_iff.1 (Config.known_of_settingsOf rfl)
  have h₂ : NamesOptions d₂ := Config.known_named_iff.1 (Config.known_of_settingsOf rfl)
  have hzeta : ∀ s : Setting, Text.ofString "zeta" ≠ .ofString s.name := by
    intro s hs
    cases s <;> exact absurd (Text.ofString_injective hs) (by decide)
  have hd : ¬ NamesOptions d := by
    intro h
    obtain ⟨s, hs⟩ := h (.ofString "zeta", .null) List.mem_cons_self
    exact hzeta s hs
  have hc' : (default : Config).replaceNamed d₁ = .ok { startOffset := 4, eofPolicy := .value } :=
    toOption_eq_some_iff.1 (by decide +kernel)
  obtain ⟨-, hoverlay, hreplace, hunknown⟩ := overlays_compose
  obtain ⟨names, herror, -, -, hascending, hmem⟩ := hunknown { startOffset := 4, eofPolicy := .value } d hd
  exact ⟨_, d₁, d₂, d, names, rfl, rfl, rfl, h₁, h₂, hc', rfl, hreplace _ _ d₁ d₂ h₁ h₂ hc', hoverlay _ d₂ h₂, hd,
    herror, hascending, (hmem _).2 ⟨⟨.null, List.mem_cons_self⟩, hzeta⟩⟩

end Brainfuck
