/-
Two machines of one program, side by side.

Machines that are configured differently, or that have different streams, can go through states that belong together.
What "together" means is a relation `R` between their worlds; the indices are the same.

- `Moves.transfer`: if the effects of the commands keep `R`, so does every move. Brackets and the step limit look only
  at the pointer, the cell under it and the count of steps.
- `Machine.step_pair`, `Machine.after_pair`, `Machine.run_pair`: what moves keep, one step of both machines keeps, and
  any number of steps, and a run. The guard `G` is a condition on the first machine that the argument may need before
  each step.
- `Machine.execute_pair_of_moves`: what the last flush keeps too, an execution does.
- Most of them have a form, ending in `_map`, for machines of which the second stops for an image of what stops the
  first.
- `Session.withConfig`: the same session under another configuration. While both build the bracket table or both do
  not, the machines that they prepare have one program (`Session.exists_places`).
-/
import Brainfuck.Proofs.Running

namespace Brainfuck

variable {σ τ : Type} {p : Program} {c d : Config}

/-! ## Sessions -/

theorem Job.program_congr (job : Job) (h : d.precomputeJumps = c.precomputeJumps) : job.program d = job.program c := by
  cases job <;> simp only [Job.program, h]

namespace Session

/-- the session under another configuration -/
def withConfig (s : Session σ τ) (config : Config) : Session σ τ := { s with config := config }

/-- the machine of a session, and the one of the same session under another configuration, have one program -/
theorem exists_places {s : Session σ τ} {job : Job} {m : Machine σ τ} (hjob : job.Parsed)
    (hd : d.precomputeJumps = s.config.precomputeJumps) (hm : s.prepare job = .ok m) :
    ∃ p : Program, p.WellFormed ∧ m = .place p s.config 0 (.initial s.config s.feed.source s.sink) ∧
      (s.withConfig d).prepare job = .ok (.place p d 0 (.initial d s.feed.source s.sink)) := by
  cases hp : job.program s.config with
  | error e =>
    rw [s.prepare_eq_error hp] at hm
    cases hm
  | ok p =>
    rw [s.prepare_eq_place hp, Except.ok.injEq] at hm
    have hq : job.program (s.withConfig d).config = .ok p := (job.program_congr hd).trans hp
    exact ⟨p, Job.wellFormed_of_program hjob hp, hm.symm, (s.withConfig d).prepare_eq_place hq⟩

/-- a program that cannot be parsed cannot be parsed under the other configuration -/
theorem prepare_withConfig_eq_error {s : Session σ τ} {job : Job} {e : ParseError}
    (hd : d.precomputeJumps = s.config.precomputeJumps) (h : s.prepare job = .error e) :
    (s.withConfig d).prepare job = .error e := by
  cases hp : job.program s.config with
  | error f =>
    rw [s.prepare_eq_error hp] at h
    exact ((s.withConfig d).prepare_eq_error ((job.program_congr hd).trans hp)).trans h
  | ok p =>
    rw [s.prepare_eq_place hp] at h
    cases h

end Session

/-! ## Steps -/

/-- how a run ends if what stops it is changed -/
def Ending.map (f : Stop → Stop) : Ending → Ending
  | .stopped s => .stopped (f s)
  | e => e

@[simp] theorem Ending.map_id (e : Ending) : e.map id = e := by cases e <;> rfl

variable {σ' τ' : Type} [ByteSource σ] [ByteSink τ] [ByteSource σ'] [ByteSink τ']

/-- a relation that the effects of the commands keep is kept by every move; what stops the second machine is an image
under `f` of what stops the first -/
theorem Moves.transfer_map {f : Stop → Stop} {R : World σ τ → World σ' τ' → Prop} {i j : Nat} {w w' : World σ τ}
    {v : World σ' τ'} {stop : Option Stop} (h : Moves p c i w stop j w') (hmissing : f .noCommand = .noCommand)
    (hlimit : ∀ limit, c.maxSteps = some limit → limit ≤ w.steps → d.maxSteps = some limit ∧
      f (.error ⟨.stepLimitExceeded limit, i, w.pointer⟩) = .error ⟨.stepLimitExceeded limit, i, v.pointer⟩)
    (hallowed : w.Allowed c → v.Allowed d)
    (hlook : ∀ w v, R w v → v.steps = w.steps ∧ v.cell = w.cell)
    (htick : ∀ w v, R w v → R w.tick v.tick) (hR : R w v)
    (heffect : ∀ command stop w', w.Allowed c → p.commands[i]? = some command → Effect c i command w stop w' →
      ∃ v', Effect d i command v (stop.map f) v' ∧ R w' v') :
    ∃ v', Moves p d i v (stop.map f) j v' ∧ R w' v' := by
  obtain ⟨hsteps, hcell⟩ := hlook w v hR
  cases h with
  | limit hmax hle =>
    obtain ⟨hmax', himage⟩ := hlimit _ hmax hle
    refine ⟨v, ?_, hR⟩
    rw [Option.map_some, himage]
    exact .limit hmax' (hsteps.symm ▸ hle)
  | missing ha hc =>
    refine ⟨v, ?_, hR⟩
    rw [Option.map_some, hmissing]
    exact .missing (hallowed ha) hc
  | plain ha hc he =>
    obtain ⟨v', he', hR'⟩ := heffect _ _ _ ha hc he
    exact ⟨v', .plain (hallowed ha) hc he', hR'⟩
  | plainStop ha hc he =>
    obtain ⟨v', he', hR'⟩ := heffect _ _ _ ha hc he
    exact ⟨v', .plainStop (hallowed ha) hc he', hR'⟩
  | skip ha hpair h0 => exact ⟨v.tick, .skip (hallowed ha) hpair (hcell.trans h0), htick w v hR⟩
  | enter ha hpair h0 => exact ⟨v.tick, .enter (hallowed ha) hpair (hcell.symm ▸ h0), htick w v hR⟩
  | leave ha hpair h0 => exact ⟨v.tick, .leave (hallowed ha) hpair (hcell.trans h0), htick w v hR⟩
  | again ha hpair h0 => exact ⟨v.tick, .again (hallowed ha) hpair (hcell.symm ▸ h0), htick w v hR⟩

/-- the same for machines that stop alike -/
theorem Moves.transfer {R : World σ τ → World σ' τ' → Prop} {i j : Nat} {w w' : World σ τ} {v : World σ' τ'}
    {stop : Option Stop} (h : Moves p c i w stop j w')
    (hlimit : ∀ limit, c.maxSteps = some limit → limit ≤ w.steps → d.maxSteps = some limit)
    (hallowed : w.Allowed c → v.Allowed d)
    (hlook : ∀ w v, R w v → v.pointer = w.pointer ∧ v.steps = w.steps ∧ v.cell = w.cell)
    (htick : ∀ w v, R w v → R w.tick v.tick) (hR : R w v)
    (heffect : ∀ command stop w', w.Allowed c → p.commands[i]? = some command → Effect c i command w stop w' →
      ∃ v', Effect d i command v stop v' ∧ R w' v') :
    ∃ v', Moves p d i v stop j v' ∧ R w' v' := by
  have hmap : ∃ v', Moves p d i v (stop.map id) j v' ∧ R w' v' := by
    apply h.transfer_map rfl _ hallowed (fun w v h => (hlook w v h).2) htick hR
    · simpa using heffect
    · intro limit hmax hle
      exact ⟨hlimit limit hmax hle, by rw [(hlook w v hR).1]; rfl⟩
  simpa using hmap

namespace Machine

/-- one step of both machines; what stops the second is an image of what stops the first -/
theorem step_pair_map (hp : p.WellFormed) {f : Stop → Stop} {R : World σ τ → World σ' τ' → Prop} {i : Nat}
    {w : World σ τ} {v : World σ' τ'} (hw : w.Fits c) (hv : v.Fits d)
    (hkeep : ∀ stop j w', Moves p c i w stop j w' → ∃ v', Moves p d i v (stop.map f) j v' ∧ R w' v') :
    ∃ stop j w' v', (place p c i w).step = (stop, place p c j w') ∧
      (place p d i v).step = (stop.map f, place p d j v') ∧ w'.Fits c ∧ v'.Fits d ∧ R w' v' := by
  obtain ⟨stop, j, w', hmove⟩ := exists_moves hp i hw
  obtain ⟨v', hmove', hR⟩ := hkeep stop j w' hmove
  exact ⟨stop, j, w', v', step_of_moves hp hw hmove, step_of_moves hp hv hmove', hmove.fits hw, hmove'.fits hv, hR⟩

/-- one step of both machines -/
theorem step_pair (hp : p.WellFormed) {R : World σ τ → World σ' τ' → Prop} {i : Nat} {w : World σ τ}
    {v : World σ' τ'} (hw : w.Fits c) (hv : v.Fits d)
    (hkeep : ∀ stop j w', Moves p c i w stop j w' → ∃ v', Moves p d i v stop j v' ∧ R w' v') :
    ∃ stop j w' v', (place p c i w).step = (stop, place p c j w') ∧ (place p d i v).step = (stop, place p d j v') ∧
      w'.Fits c ∧ v'.Fits d ∧ R w' v' := by
  have hmap := step_pair_map hp (f := id) (R := R) hw hv (by simpa using hkeep)
  simpa using hmap

/-- any number of steps of both machines, if the guard holds before each of them -/
theorem after_pair_map (hp : p.WellFormed) {f : Stop → Stop} {R : World σ τ → World σ' τ' → Prop}
    {G : Nat → World σ τ → Prop}
    (hkeep : ∀ i w v, w.Fits c → v.Fits d → R w v → G i w →
      ∀ stop j w', Moves p c i w stop j w' → ∃ v', Moves p d i v (stop.map f) j v' ∧ R w' v')
    {i : Nat} {w : World σ τ} {v : World σ' τ'} (hw : w.Fits c) (hv : v.Fits d) (hR : R w v) (k : Nat)
    (hG : ∀ n < k, ∀ j w', (place p c i w).after n = place p c j w' → G j w') :
    ∃ j w' v', (place p c i w).after k = place p c j w' ∧ (place p d i v).after k = place p d j v' ∧
      w'.Fits c ∧ v'.Fits d ∧ R w' v' := by
  induction k with
  | zero => exact ⟨i, w, v, rfl, rfl, hw, hv, hR⟩
  | succ k ih =>
    obtain ⟨j, w₁, v₁, hk, hk', hw₁, hv₁, hR₁⟩ := ih fun n hn => hG n (Nat.lt_succ_of_lt hn)
    have hguard : G j w₁ := hG k (Nat.lt_succ_self k) j w₁ hk
    obtain ⟨stop, j', w₂, v₂, hs, hs', hrest⟩ := step_pair_map hp hw₁ hv₁ (hkeep j w₁ v₁ hw₁ hv₁ hR₁ hguard)
    exact ⟨j', w₂, v₂, by rw [after, hk, hs], by rw [after, hk', hs'], hrest⟩

/-- the same for machines that stop alike -/
theorem after_pair (hp : p.WellFormed) {R : World σ τ → World σ' τ' → Prop} {G : Nat → World σ τ → Prop}
    (hkeep : ∀ i w v, w.Fits c → v.Fits d → R w v → G i w →
      ∀ stop j w', Moves p c i w stop j w' → ∃ v', Moves p d i v stop j v' ∧ R w' v')
    {i : Nat} {w : World σ τ} {v : World σ' τ'} (hw : w.Fits c) (hv : v.Fits d) (hR : R w v) (k : Nat)
    (hG : ∀ n < k, ∀ j w', (place p c i w).after n = place p c j w' → G j w') :
    ∃ j w' v', (place p c i w).after k = place p c j w' ∧ (place p d i v).after k = place p d j v' ∧
      w'.Fits c ∧ v'.Fits d ∧ R w' v' :=
  after_pair_map hp (f := id) (by simpa using hkeep) hw hv hR k hG

/-- a run of both machines, if the guard holds wherever the first one gets -/
theorem run_pair_map (hp : p.WellFormed) {f : Stop → Stop} {R : World σ τ → World σ' τ' → Prop}
    {G : Nat → World σ τ → Prop}
    (hkeep : ∀ i w v, w.Fits c → v.Fits d → R w v → G i w →
      ∀ stop j w', Moves p c i w stop j w' → ∃ v', Moves p d i v (stop.map f) j v' ∧ R w' v')
    {i : Nat} {w : World σ τ} {v : World σ' τ'} (hw : w.Fits c) (hv : v.Fits d) (hR : R w v) (n : Nat)
    (hG : ∀ k, (place p c i w).Dispatches k → ∀ j w', (place p c i w).after k = place p c j w' → G j w') :
    ∃ e j w' v', (place p c i w).run n = (e, place p c j w') ∧ (place p d i v).run n = (e.map f, place p d j v') ∧
      R w' v' := by
  have hfin : (place p d i v).finished = (place p c i w).finished := rfl
  induction n generalizing i w v with
  | zero =>
    cases hdone : (place p c i w).finished with
    | true => exact ⟨_, i, w, v, run_of_finished hdone 0, run_of_finished (hfin.trans hdone) 0, hR⟩
    | false => exact ⟨_, i, w, v, run_zero_of_unfinished hdone, run_zero_of_unfinished (hfin.trans hdone), hR⟩
  | succ n ih =>
    cases hdone : (place p c i w).finished with
    | true => exact ⟨_, i, w, v, run_of_finished hdone _, run_of_finished (hfin.trans hdone) _, hR⟩
    | false =>
      have hnothing : (place p c i w).Dispatches 0 := fun k hk => absurd hk (Nat.not_lt_zero k)
      obtain ⟨stop, j, w₁, v₁, hs, hs', hw₁, hv₁, hR₁⟩ :=
        step_pair_map hp hw hv (hkeep i w v hw hv hR (hG 0 hnothing i w rfl))
      cases stop with
      | some s => exact ⟨_, j, w₁, v₁, run_of_stop hdone hs n, run_of_stop (hfin.trans hdone) hs' n, hR₁⟩
      | none =>
        have hone : (place p c i w).Dispatches 1 := dispatches_succ_iff.2 ⟨hnothing, hdone, congrArg Prod.fst hs⟩
        have hafter : (place p c i w).after 1 = place p c j w₁ := congrArg Prod.snd hs
        rw [run_of_step hdone hs, run_of_step (hfin.trans hdone) hs']
        refine ih hw₁ hv₁ hR₁ ?_ rfl
        intro k hk j' w' hk'
        rw [← hafter] at hk hk'
        exact hG (1 + k) (dispatches_add_iff.2 ⟨hone, hk⟩) j' w' ((after_add _ 1 k).trans hk')

/-- a run of both machines -/
theorem run_pair (hp : p.WellFormed) {R : World σ τ → World σ' τ' → Prop}
    (hkeep : ∀ i w v, w.Fits c → v.Fits d → R w v →
      ∀ stop j w', Moves p c i w stop j w' → ∃ v', Moves p d i v stop j v' ∧ R w' v')
    {i : Nat} {w : World σ τ} {v : World σ' τ'} (hw : w.Fits c) (hv : v.Fits d) (hR : R w v) (n : Nat) :
    ∃ e j w' v', (place p c i w).run n = (e, place p c j w') ∧ (place p d i v).run n = (e, place p d j v') ∧
      R w' v' := by
  have hmap := run_pair_map hp (f := id) (G := fun _ _ => True) (i := i) (by simpa using hkeep) hw hv hR n (by simp)
  simpa using hmap

/-- runs that end alike do so with the last flush, if it keeps the relation -/
theorem execute_pair_map {q : Program} {f : Stop → Stop} {R : World σ τ → World σ' τ' → Prop} {i : Nat}
    {w : World σ τ} {v : World σ' τ'} {m : Machine σ τ} {m' : Machine σ' τ'} {u : Nat} {e : Ending}
    (hkeep : ∀ stop w', Completes c i w stop w' → ∃ v', Completes d i v (stop.map f) v' ∧ R w' v')
    (hrun : m.run u = (e, place p c i w)) (hrun' : m'.run u = (e.map f, place q d i v)) (hR : R w v) :
    ∃ e' w' v', R w' v' ∧ m.execute u = (e', place p c i w') ∧ m'.execute u = (e'.map f, place q d i v') := by
  cases e with
  | finished =>
    obtain ⟨stop, w', hcomplete⟩ := exists_completes c i w
    obtain ⟨v', hcomplete', hR'⟩ := hkeep stop w' hcomplete
    have hx := execute_of_completes hrun hcomplete
    have hx' := execute_of_completes hrun' hcomplete'
    refine ⟨_, w', v', hR', hx, ?_⟩
    rw [hx']
    cases stop <;> rfl
  | stopped s =>
    refine ⟨.stopped s, w, v, hR, ?_, ?_⟩
    · simp only [execute, hrun]
    · simp only [execute, hrun', Ending.map]
  | unfinished =>
    refine ⟨.unfinished, w, v, hR, ?_, ?_⟩
    · simp only [execute, hrun]
    · simp only [execute, hrun', Ending.map]

/-- the same for machines that stop alike -/
theorem execute_pair_of_run {q : Program} {R : World σ τ → World σ' τ' → Prop} {i : Nat} {w : World σ τ}
    {v : World σ' τ'} {m : Machine σ τ} {m' : Machine σ' τ'} {u : Nat} {e : Ending}
    (hkeep : ∀ stop w', Completes c i w stop w' → ∃ v', Completes d i v stop v' ∧ R w' v')
    (hrun : m.run u = (e, place p c i w)) (hrun' : m'.run u = (e, place q d i v)) (hR : R w v) :
    ∃ e' w' v', R w' v' ∧ m.execute u = (e', place p c i w') ∧ m'.execute u = (e', place q d i v') := by
  have hmap := execute_pair_map (f := id) (R := R) (by simpa using hkeep) hrun (by simpa using hrun') hR
  simpa using hmap

/-- executions of both machines: what every move and the last flush keep -/
theorem execute_pair_of_moves (hp : p.WellFormed) {R : World σ τ → World σ' τ' → Prop}
    (hkeep : ∀ i w v, w.Fits c → v.Fits d → R w v →
      ∀ stop j w', Moves p c i w stop j w' → ∃ v', Moves p d i v stop j v' ∧ R w' v')
    (hlast : ∀ i w v, R w v → ∀ stop w', Completes c i w stop w' → ∃ v', Completes d i v stop v' ∧ R w' v')
    {i : Nat} {w : World σ τ} {v : World σ' τ'} (hw : w.Fits c) (hv : v.Fits d) (hR : R w v) (u : Nat) :
    ∃ e j w' v', R w' v' ∧ (place p c i w).execute u = (e, place p c j w') ∧
      (place p d i v).execute u = (e, place p d j v') := by
  obtain ⟨e, j, w₁, v₁, hrun, hrun', hR₁⟩ := run_pair (i := i) hp hkeep hw hv hR u
  obtain ⟨e', w', v', hR', hx, hx'⟩ := execute_pair_of_run (hlast j w₁ v₁ hR₁) hrun hrun' hR₁
  exact ⟨e', j, w', v', hR', hx, hx'⟩

end Machine

end Brainfuck
