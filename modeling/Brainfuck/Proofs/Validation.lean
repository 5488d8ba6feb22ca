/-
Which drafts are configurations.

- `Draft.Reads d t`: the values of the draft have the types of options, and these are the options. The integers are no
  truth values, only the step limit may be null, and the policy is a text that names one.
- `Draft.build_eq_ok_iff`: a draft is built into a configuration if it reads as its options; `Draft.exists_build_iff`
  says when there is one (`Draft.Valid`): the values have their types and all ranges hold.
- `Draft.failsForValues_build`: a draft that is not built is refused for one of its values.
- `Draft.Alike`: two drafts that differ in the spelling of the policy at most. They are built alike
  (`Draft.Alike.build_eq`), and a draft and the one of the configuration it was built into are two such
  (`Draft.Reads.alike`).
-/
import Brainfuck.Proofs.Drafts
import Brainfuck.Proofs.Wording

namespace Brainfuck

/-! ## Answers in sequence -/

section Bind

variable {ε α β : Type} {x : Except ε α} {f : α → Except ε β}

@[simp] theorem ok_bind (a : α) (f : α → Except ε β) : .ok a >>= f = f a := rfl

@[simp] theorem error_bind (e : ε) (f : α → Except ε β) : .error e >>= f = .error e := rfl

@[simp] theorem mapError_ok {ε' : Type} (g : ε → ε') (a : α) : (Except.ok a).mapError g = .ok a := rfl

@[simp] theorem mapError_error {ε' : Type} (g : ε → ε') (e : ε) :
    (Except.error e : Except ε α).mapError g = .error (g e) := rfl

theorem bind_eq_ok_iff {b : β} : x >>= f = .ok b ↔ ∃ a, x = .ok a ∧ f a = .ok b := by
  cases x with
  | error e =>
    refine iff_of_false ?_ ?_
    · intro h
      cases h
    · rintro ⟨a, h, -⟩
      cases h
  | ok a =>
    constructor
    · intro h
      exact ⟨a, rfl, h⟩
    · rintro ⟨_, ⟨⟩, h⟩
      exact h

theorem error_of_bind {e : ε} (h : x >>= f = .error e) : x = .error e ∨ ∃ a, x = .ok a ∧ f a = .error e := by
  cases x with
  | error e' =>
    cases h
    exact .inl rfl
  | ok a => exact .inr ⟨a, rfl, h⟩

theorem map_eq_ok_iff {g : α → β} {b : β} : x.map g = .ok b ↔ ∃ a, x = .ok a ∧ g a = b := by
  cases x <;> simp [Except.map]

theorem mapError_eq_ok_iff {ε' : Type} {g : ε → ε'} {a : α} : x.mapError g = .ok a ↔ x = .ok a := by
  cases x <;> simp [Except.mapError]

theorem mapError_eq_error_iff {ε' : Type} {g : ε → ε'} {e' : ε'} :
    x.mapError g = .error e' ↔ ∃ e, x = .error e ∧ g e = e' := by
  cases x <;> simp [Except.mapError]

theorem toOption_eq_some_iff {a : α} : x.toOption = some a ↔ x = .ok a := by
  cases x <;> simp [Except.toOption]

end Bind

namespace Draft

/-! ## Types -/

/-- the values of the draft have the types of options, and these are the options -/
structure Reads (d : Draft) (t : Typed) : Prop where
  tapeLength : d.value .tapeLength = .int t.tapeLength
  maxSteps : d.value .maxSteps = t.maxSteps.elim .null .int
  startOffset : d.value .startOffset = .int t.startOffset
  growthChunk : d.value .growthChunk = .int t.growthChunk
  eofValue : d.value .eofValue = .int t.eofValue
  allowGrowth : d.value .allowGrowth = .bool t.allowGrowth
  wrappingCells : d.value .wrappingCells = .bool t.wrappingCells
  precomputeJumps : d.value .precomputeJumps = .bool t.precomputeJumps
  flushOutput : d.value .flushOutput = .bool t.flushOutput
  benchExecution : d.value .benchExecution = .bool t.benchExecution
  /-- without the blanks around it, and in small letters, the text is the name of the policy -/
  eofPolicy : ∃ text, d.value .eofPolicy = .text text ∧ text.strip.lower = .ofString t.eofPolicy.name

variable {d : Draft} {s : Setting}

theorem int_eq_ok_iff {n : Int} : d.int s = .ok n ↔ d.value s = .int n := by
  unfold int
  split <;> simp_all

theorem int?_eq_ok_iff {n : Option Int} : d.int? s = .ok n ↔ d.value s = n.elim .null .int := by
  unfold int?
  split
  · rename_i h
    rw [h]
    cases n <;> simp
  · rename_i h
    cases n with
    | none => cases hint : d.int s <;> simp_all [Except.map]
    | some n =>
      rw [Option.elim_some, ← int_eq_ok_iff]
      cases hint : d.int s <;> simp [Except.map]

theorem bool_eq_ok_iff {b : Bool} : d.bool s = .ok b ↔ d.value s = .bool b := by
  unfold bool
  split
  · rename_i h
    simp [h]
  · rename_i h
    exact iff_of_false (by simp) (h b)

theorem policy_eq_ok_iff {p : EofPolicy} :
    d.policy = .ok p ↔ ∃ text, d.value .eofPolicy = .text text ∧ text.strip.lower = .ofString p.name := by
  unfold policy
  split <;> simp_all [EofPolicy.read_eq_ok_iff]

theorem typed_eq_ok_iff {t : Typed} : d.typed = .ok t ↔ d.Reads t := by
  simp only [typed, bind_eq_ok_iff, int_eq_ok_iff, int?_eq_ok_iff, bool_eq_ok_iff, policy_eq_ok_iff]
  constructor
  · rintro ⟨_, h₁, _, h₂, _, h₃, _, h₄, _, h₅, _, h₆, _, h₇, _, h₈, _, h₉, _, h₁₀, _, h₁₁, h⟩
    cases h
    exact ⟨h₁, h₂, h₃, h₄, h₅, h₆, h₇, h₈, h₉, h₁₀, h₁₁⟩
  · rintro ⟨h₁, h₂, h₃, h₄, h₅, h₆, h₇, h₈, h₉, h₁₀, h₁₁⟩
    exact ⟨_, h₁, _, h₂, _, h₃, _, h₄, _, h₅, _, h₆, _, h₇, _, h₈, _, h₉, _, h₁₀, _, h₁₁, rfl⟩

/-! ## Ranges -/

/-- the values of the draft have the types of options, and all of them are in range -/
def Valid (d : Draft) : Prop := ∃ t, d.Reads t ∧ t.InRange

theorem Typed.inRange_of_build {t : Typed} {c : Config} (h : t.build = .ok c) : t.InRange := by
  unfold Typed.build at h
  split_ifs at h with htape hchunk hlimit hstart hbyte
  have hsteps : ∀ limit, t.maxSteps = some limit → 0 ≤ limit := by
    intro limit hsome
    rw [hsome, Option.any_some, decide_eq_true_eq] at hlimit
    exact Int.not_lt.1 hlimit
  exact ⟨Int.not_lt.1 htape, Int.not_lt.1 hchunk, hsteps, hstart, hbyte⟩

/-- a configuration is built from its own options -/
theorem Typed.build_options (c : Config) : Typed.build c.options = .ok c := by
  obtain ⟨d, hd, hoptions⟩ := Typed.build_of_inRange c.inRange_options
  obtain rfl : d = c := Config.options_injective hoptions
  exact hd

theorem Typed.build_eq_ok_iff {t : Typed} {c : Config} : t.build = .ok c ↔ t = c.options := by
  constructor
  · intro h
    obtain ⟨c', hc', hoptions⟩ := Typed.build_of_inRange (Typed.inRange_of_build h)
    obtain rfl := Except.ok.inj (hc'.symm.trans h)
    exact hoptions.symm
  · rintro rfl
    exact Typed.build_options c

/-- a draft is built into the configuration as whose options it reads -/
theorem build_eq_ok_iff {c : Config} : d.build = .ok c ↔ d.Reads c.options := by
  simp only [build, bind_eq_ok_iff, typed_eq_ok_iff, Typed.build_eq_ok_iff, exists_eq_right]

/-- exactly the valid drafts are built -/
theorem exists_build_iff : (∃ c, d.build = .ok c) ↔ d.Valid := by
  constructor
  · rintro ⟨c, h⟩
    exact ⟨c.options, build_eq_ok_iff.1 h, c.inRange_options⟩
  · rintro ⟨t, hreads, hrange⟩
    obtain ⟨c, -, rfl⟩ := Typed.build_of_inRange hrange
    exact ⟨c, build_eq_ok_iff.2 hreads⟩

theorem Reads.valid {c : Config} (h : d.Reads c.options) : d.Valid := ⟨_, h, c.inRange_options⟩

/-! ## Refusals -/

/-- whatever fails, fails for a value and not for its type -/
def FailsForValues {α : Type} (x : Except ConfigError α) : Prop := ∀ e, x = .error e → e.isTypeError = false

theorem FailsForValues.bind {α β : Type} {x : Except ConfigError α} {f : α → Except ConfigError β}
    (hx : FailsForValues x) (hf : ∀ a, FailsForValues (f a)) : FailsForValues (x >>= f) := by
  intro e h
  rcases error_of_bind h with h | ⟨a, -, h⟩
  · exact hx e h
  · exact hf a e h

theorem failsForValues_int (d : Draft) (s : Setting) : FailsForValues (d.int s) := by
  intro e h
  unfold int at h
  split at h <;> cases h
  rfl

theorem failsForValues_int? (d : Draft) (s : Setting) : FailsForValues (d.int? s) := by
  intro e h
  unfold int? at h
  split at h
  · cases h
  · cases hint : d.int s with
    | ok n => simp [hint, Except.map] at h
    | error e' =>
      simp only [hint, Except.map, Except.error.injEq] at h
      exact h ▸ failsForValues_int d s e' hint

theorem failsForValues_bool (d : Draft) (s : Setting) : FailsForValues (d.bool s) := by
  intro e h
  unfold bool at h
  split at h <;> cases h
  rfl

theorem failsForValues_policy (d : Draft) : FailsForValues d.policy := by
  intro e h
  unfold policy at h
  split at h
  · rw [EofPolicy.read_eq_error h]
    rfl
  · cases h
    rfl

theorem failsForValues_typed (d : Draft) : FailsForValues d.typed := by
  unfold typed
  refine .bind (failsForValues_int d _) fun _ => .bind (failsForValues_int? d _) fun _ => ?_
  refine .bind (failsForValues_int d _) fun _ => .bind (failsForValues_int d _) fun _ => ?_
  refine .bind (failsForValues_int d _) fun _ => .bind (failsForValues_bool d _) fun _ => ?_
  refine .bind (failsForValues_bool d _) fun _ => .bind (failsForValues_bool d _) fun _ => ?_
  refine .bind (failsForValues_bool d _) fun _ => .bind (failsForValues_bool d _) fun _ => ?_
  refine .bind (failsForValues_policy d) fun _ => ?_
  intro e h
  cases h

theorem Typed.failsForValues_build (t : Typed) : FailsForValues t.build := by
  intro e h
  unfold Typed.build at h
  split_ifs at h <;> cases h <;> rfl

/-- a draft that is not built is refused for one of its values -/
theorem failsForValues_build (d : Draft) : FailsForValues d.build :=
  .bind d.failsForValues_typed Typed.failsForValues_build

/-! ## Two spellings of a policy -/

/-- the drafts differ in the spelling of the policy at most -/
structure Alike (d d' : Draft) : Prop where
  value_eq : ∀ s, s ≠ .eofPolicy → d'.value s = d.value s
  policy_eq : d'.policy = d.policy

theorem Alike.build_eq {d d' : Draft} (h : d.Alike d') : d'.build = d.build := by
  have hint : ∀ s, s ≠ .eofPolicy → d'.int s = d.int s := by
    intro s hs
    unfold int
    rw [h.value_eq s hs]
  have hbool : ∀ s, s ≠ .eofPolicy → d'.bool s = d.bool s := by
    intro s hs
    unfold bool
    rw [h.value_eq s hs]
  have hlimit : d'.int? .maxSteps = d.int? .maxSteps := by
    unfold int?
    rw [h.value_eq _ (by decide), hint _ (by decide)]
  simp only [build, typed, hlimit, h.policy_eq, hint, hbool, ne_eq, reduceCtorEq, not_false_eq_true]

/-- a draft beside the one of the configuration that it is built into -/
theorem Reads.alike {c : Config} (h : d.Reads c.options) : c.draft.Alike d := by
  have hown : c.draft.Reads c.options := typed_eq_ok_iff.1 c.typed_draft
  constructor
  · intro s hs
    cases s with
    | eofPolicy => exact absurd rfl hs
    | tapeLength => rw [h.tapeLength, hown.tapeLength]
    | allowGrowth => rw [h.allowGrowth, hown.allowGrowth]
    | wrappingCells => rw [h.wrappingCells, hown.wrappingCells]
    | maxSteps => rw [h.maxSteps, hown.maxSteps]
    | startOffset => rw [h.startOffset, hown.startOffset]
    | precomputeJumps => rw [h.precomputeJumps, hown.precomputeJumps]
    | flushOutput => rw [h.flushOutput, hown.flushOutput]
    | growthChunk => rw [h.growthChunk, hown.growthChunk]
    | benchExecution => rw [h.benchExecution, hown.benchExecution]
    | eofValue => rw [h.eofValue, hown.eofValue]
  · rw [policy_eq_ok_iff.2 h.eofPolicy, policy_eq_ok_iff.2 hown.eofPolicy]

end Draft

end Brainfuck
