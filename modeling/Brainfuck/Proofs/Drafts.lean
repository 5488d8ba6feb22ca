/-
The options of a configuration, read back.

- `Config.options`: the options of a configuration as numbers and truth values. They are what is read from its draft
  (`Config.typed_draft`), and they determine it (`Config.options_injective`).
- `Draft.Typed.InRange`: the numbers are in range. Then they are the options of a configuration
  (`Draft.Typed.build_of_inRange`), and those of a configuration are (`Config.inRange_options`); so a configuration is
  built from its own options (`Config.build_draft`).
- `Config.replace_maxSteps`: a configuration can be given any step limit.
-/
import Mathlib.Tactic
import Brainfuck.Config.Draft

namespace Brainfuck

theorem EofPolicy.read_name (p : EofPolicy) : EofPolicy.read (Text.ofString p.name) = .ok p := by
  cases p <;> rfl

/-- the options of a configuration as numbers and truth values -/
def Config.options (c : Config) : Draft.Typed where
  tapeLength := c.tapeLength
  maxSteps := c.maxSteps.map Int.ofNat
  startOffset := c.startOffset
  growthChunk := c.growthChunk
  eofValue := c.eofValue.toNat
  allowGrowth := c.allowGrowth
  wrappingCells := c.wrappingCells
  precomputeJumps := c.precomputeJumps
  flushOutput := c.flushOutput
  benchExecution := c.benchExecution
  eofPolicy := c.eofPolicy

/-! ## Ranges -/

namespace Draft.Typed

/-- the numbers are in range -/
structure InRange (t : Typed) : Prop where
  tapeLength : 1 ≤ t.tapeLength
  growthChunk : 1 ≤ t.growthChunk
  maxSteps : ∀ limit, t.maxSteps = some limit → 0 ≤ limit
  startOffset : 0 ≤ t.startOffset ∧ t.startOffset < t.tapeLength
  eofValue : 0 ≤ t.eofValue ∧ t.eofValue ≤ 255

theorem build_of_inRange {t : Typed} (h : t.InRange) : ∃ c, t.build = .ok c ∧ c.options = t := by
  have hlimit : ¬ t.maxSteps.any (· < 0) = true := by
    rw [Option.any_eq_true]
    rintro ⟨limit, hlimit, hneg⟩
    exact absurd (of_decide_eq_true hneg) (Int.not_lt.2 (h.maxSteps limit hlimit))
  have hback : (t.maxSteps.map Int.toNat).map Int.ofNat = t.maxSteps := by
    cases hmax : t.maxSteps with
    | none => rfl
    | some limit => exact congrArg some (Int.toNat_of_nonneg (h.maxSteps limit hmax))
  have hbyte : ((UInt8.ofNat t.eofValue.toNat).toNat : Int) = t.eofValue := by
    obtain ⟨hnonneg, hle⟩ := h.eofValue
    have hlt : t.eofValue.toNat < 2 ^ 8 := by omega
    rw [UInt8.toNat_ofNat_of_lt' hlt, Int.toNat_of_nonneg hnonneg]
  have htape := h.tapeLength
  have hchunk := h.growthChunk
  unfold build
  rw [dif_neg (Int.not_lt.2 htape), dif_neg (Int.not_lt.2 hchunk), if_neg hlimit, dif_neg (not_not_intro h.startOffset),
    if_neg (not_not_intro h.eofValue)]
  refine ⟨_, rfl, ?_⟩
  simp only [Config.options, hback, hbyte, Int.toNat_of_nonneg (Int.le_trans Int.one_nonneg htape),
    Int.toNat_of_nonneg (Int.le_trans Int.one_nonneg hchunk), Int.toNat_of_nonneg h.startOffset.1]

end Draft.Typed

namespace Config

theorem inRange_options (c : Config) : c.options.InRange where
  tapeLength := Int.ofNat_le.2 c.tapeLength_pos
  growthChunk := Int.ofNat_le.2 c.growthChunk_pos
  maxSteps := by
    intro limit h
    obtain ⟨n, -, rfl⟩ := Option.map_eq_some_iff.1 h
    exact Int.natCast_nonneg n
  startOffset := ⟨Int.natCast_nonneg _, Int.ofNat_lt.2 c.startOffset_lt⟩
  eofValue := ⟨Int.natCast_nonneg _, Int.ofNat_le.2 (Nat.le_of_lt_succ c.eofValue.toNat_lt)⟩

theorem options_injective {c d : Config} (h : c.options = d.options) : c = d := by
  obtain ⟨htape, hlimit, hstart, hchunk, hbyte, _⟩ := Draft.Typed.mk.inj h
  have := Option.map_injective Int.ofNat_injective hlimit
  cases c
  cases d
  simp_all [options, UInt8.toNat_inj]

/-! ## From a configuration and back -/

theorem typed_draft (c : Config) : c.draft.typed = .ok c.options := by
  have hpolicy : c.draft.policy = .ok c.eofPolicy := c.eofPolicy.read_name
  have hlimit : c.draft.int? .maxSteps = .ok (c.maxSteps.map Int.ofNat) := by
    cases h : c.maxSteps <;> simp only [Draft.int?, Draft.int, draft, h] <;> rfl
  simp only [Draft.typed, hpolicy, hlimit]
  rfl

theorem build_draft (c : Config) : c.draft.build = .ok c := by
  obtain ⟨d, hd, hoptions⟩ := Draft.Typed.build_of_inRange c.inRange_options
  obtain rfl : d = c := options_injective hoptions
  simp only [Draft.build, d.typed_draft]
  exact hd

/-- the configuration with a step limit -/
def withLimit (c : Config) (n : Nat) : Config := { c with maxSteps := some n }

theorem set_maxSteps (c : Config) (n : Nat) : c.draft.set .maxSteps (.int n) = (c.withLimit n).draft := by
  refine congrArg Draft.mk (funext fun t => ?_)
  cases t <;> rfl

/-- a configuration can be given any step limit -/
theorem replace_maxSteps (c : Config) (n : Nat) : c.replace [(.maxSteps, .int n)] = .ok (c.withLimit n) := by
  simp only [replace, Draft.setAll, List.foldl, c.set_maxSteps]
  exact (c.withLimit n).build_draft

end Config

end Brainfuck
