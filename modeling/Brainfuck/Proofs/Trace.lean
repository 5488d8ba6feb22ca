/-
The states that a machine goes through.

`Machine.after m k` is the machine after `k` calls of `step`. The machine that a session prepares for a parsed program
is a `place` of a well-formed program at the index 0 (`Session.exists_place_of_prepare`); `exists_after` is the
induction that carries a property of the index and the world along its states.
-/
import Brainfuck.Proofs.Moves
import Brainfuck.Session

namespace Brainfuck

variable {σ τ : Type} {p : Program} {config : Config}

/-! ## Prepared machines -/

namespace Job

/-- the program of the job, if it is one already, comes from a text -/
def Parsed : Job → Prop
  | script _ => True
  | parsed p => ∃ source precompute, Program.parse source precompute = .ok p

theorem parsed_script (s : Script) : (script s).Parsed := trivial

theorem wellFormed_of_program {job : Job} (hjob : job.Parsed) (h : job.program config = .ok p) : p.WellFormed := by
  cases job with
  | script source => exact Program.wellFormed_of_parse h
  | parsed q =>
    obtain ⟨source, precompute, hparse⟩ := hjob
    have hq := Program.wellFormed_of_parse hparse
    simp only [program, Except.ok.injEq] at h
    subst h
    split
    · exact hq.withTable
    · exact hq

end Job

namespace Session

/-- the machine that a session prepares for a program -/
theorem prepare_eq_place (s : Session σ τ) {job : Job} (h : job.program s.config = .ok p) :
    s.prepare job = .ok (.place p s.config 0 (.initial s.config s.feed.source s.sink)) := by
  rw [prepare, h]
  rfl

theorem prepare_eq_error (s : Session σ τ) {job : Job} {e : ParseError} (h : job.program s.config = .error e) :
    s.prepare job = .error e := by
  rw [prepare, h]
  rfl

theorem exists_place_of_prepare {s : Session σ τ} {job : Job} {m : Machine σ τ} (hjob : job.Parsed)
    (h : s.prepare job = .ok m) :
    ∃ p : Program, p.WellFormed ∧ m = .place p s.config 0 (.initial s.config s.feed.source s.sink) := by
  cases hp : job.program s.config with
  | error e => rw [s.prepare_eq_error hp] at h; cases h
  | ok p =>
    rw [s.prepare_eq_place hp, Except.ok.injEq] at h
    exact ⟨p, Job.wellFormed_of_program hjob hp, h.symm⟩

end Session

/-! ## States of a run -/

section Steps

variable [ByteSource σ] [ByteSink τ]

theorem Moves.le_length {i j : Nat} {stop : Option Stop} {w w' : World σ τ} (hi : i ≤ p.length)
    (h : Moves p config i w stop j w') : j ≤ p.length := by
  cases h with
  | limit | missing | plainStop => exact hi
  | plain _ hc _ => exact (Array.getElem?_eq_some_iff.1 hc).1
  | skip _ hpair _ | leave _ hpair _ => exact hpair.lt_length
  | enter _ hpair _ | again _ hpair _ => exact Nat.lt_trans hpair.lt hpair.lt_length

theorem Moves.steps_le {i j : Nat} {stop : Option Stop} {w w' : World σ τ} (h : Moves p config i w stop j w')
    {limit : Nat} (hmax : config.maxSteps = some limit) (hle : w.steps ≤ limit) : w'.steps ≤ limit := by
  cases h with
  | limit | missing => exact hle
  | plain hallowed _ he | plainStop hallowed _ he =>
    rw [he.steps_eq]
    exact hallowed limit hmax
  | skip hallowed | enter hallowed | leave hallowed | again hallowed => exact hallowed limit hmax

/-- what the commands keep, and what does not depend on the count, every move keeps -/
theorem Moves.keeps {P : World σ τ → Prop} {i j : Nat} {stop : Option Stop} {w w' : World σ τ}
    (htick : ∀ w, P w → P w.tick)
    (heffect : ∀ i c w stop w', Effect config i c w stop w' → P w → P w') (h : Moves p config i w stop j w')
    (hP : P w) : P w' := by
  cases h with
  | limit | missing => exact hP
  | plain _ _ he | plainStop _ _ he => exact heffect _ _ _ _ _ he hP
  | skip | enter | leave | again => exact htick w hP

namespace Machine

/-- the machine after `k` calls of `step`, whatever they come to -/
def after (m : Machine σ τ) : Nat → Machine σ τ
  | 0 => m
  | k + 1 => (m.after k).step.2

/-- what every move keeps holds after any number of steps -/
theorem exists_after (hp : p.WellFormed) {P : Nat → World σ τ → Prop} {i : Nat} {w : World σ τ} (hw : w.Fits config)
    (h : P i w) (hkeep : ∀ i w stop j w', Moves p config i w stop j w' → P i w → P j w') (k : Nat) :
    ∃ j w', (place p config i w).after k = place p config j w' ∧ w'.Fits config ∧ P j w' := by
  induction k with
  | zero => exact ⟨i, w, rfl, hw, h⟩
  | succ k ih =>
    obtain ⟨j, w₁, hk, hw₁, h₁⟩ := ih
    obtain ⟨stop, j', w₂, hmove⟩ := exists_moves hp j hw₁
    refine ⟨j', w₂, ?_, hmove.fits hw₁, hkeep _ _ _ _ _ hmove h₁⟩
    rw [after, hk, step_of_moves hp hw₁ hmove]

end Machine

end Steps

end Brainfuck
