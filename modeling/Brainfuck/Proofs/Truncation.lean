/-
A step limit cuts a run off, exactly.

- `Moves.withLimit`, `Machine.step_withLimit`: while fewer commands than the limit are counted, a step is the one that
  is made without a limit.
- `Machine.after_withLimit`: by induction, so are the states up to the limit, and the count is the number of commands.
- `Machine.ends_withLimit`: a run that ends within the limit ends alike, the last allowed command and its failure
  included. `Machine.ends_atLimit`: a run that goes on is stopped at the limit, in the state that it has there.
- `step_limit_truncates`: both for executions, which flush at the end, and that a limit makes every run end.
-/
import Brainfuck.Device
import Brainfuck.Proofs.Drafts
import Brainfuck.Proofs.Lockstep
import Brainfuck.Proofs.Running
import Brainfuck.Proofs.Simulation

namespace Brainfuck

variable {σ τ : Type} {p : Program} {c : Config} {w w' : World σ τ} {i j k limit : Nat} {stop : Option Stop}

/-- the session with a step limit -/
def Session.withLimit (s : Session σ τ) (limit : Nat) : Session σ τ := s.withConfig (s.config.withLimit limit)

theorem Config.alike_withLimit (c : Config) (limit : Nat) : c.Alike (c.withLimit limit) :=
  ⟨rfl, rfl, rfl, rfl, rfl⟩

theorem World.Fits.withLimit (h : w.Fits c) (limit : Nat) : w.Fits (c.withLimit limit) :=
  ⟨h.pointer_lt, h.length_le, h.growable, h.growthChunk⟩

theorem World.allowed_withLimit (h : w.steps < limit) : w.Allowed (c.withLimit limit) := by
  rintro _ ⟨⟩
  exact h

/-! ## One step -/

variable [ByteSource σ] [ByteSink τ]

/-- every command that is dispatched is counted -/
theorem Moves.steps_eq (hallowed : w.Allowed c) (hi : i < p.length) (h : Moves p c i w stop j w') :
    w'.steps = w.steps + 1 := by
  cases h with
  | limit hmax hle => exact absurd (hallowed _ hmax) (Nat.not_lt.2 hle)
  | missing _ hc => exact absurd hi (Nat.not_lt.2 (Array.getElem?_eq_none_iff.1 hc))
  | plain _ _ he | plainStop _ _ he => exact he.steps_eq
  | skip | enter | leave | again => rfl

/-- below the limit, a move is the one without a limit -/
theorem Moves.withLimit (hfree : c.maxSteps = none) (hlt : w.steps < limit) (h : Moves p c i w stop j w') :
    Moves p (c.withLimit limit) i w stop j w' := by
  have hallowed : w.Allowed (c.withLimit limit) := World.allowed_withLimit hlt
  have hnone : ∀ l, c.maxSteps = some l → l ≤ w.steps → (c.withLimit limit).maxSteps = some l := by
    intro l hl
    rw [hfree] at hl
    cases hl
  have hlook : ∀ w v : World σ τ, w = v → v.pointer = w.pointer ∧ v.steps = w.steps ∧ v.cell = w.cell := by
    rintro w _ rfl
    exact ⟨rfl, rfl, rfl⟩
  have htick : ∀ w v : World σ τ, w = v → w.tick = v.tick := fun _ _ => congrArg World.tick
  obtain ⟨_, hmove, rfl⟩ := h.transfer hnone (fun _ => hallowed) hlook htick rfl
    fun _ _ w' _ _ he => ⟨w', he.congr (c.alike_withLimit limit), rfl⟩
  exact hmove

namespace Machine

/-- one step, with a limit that is not reached and without one -/
theorem step_withLimit (hp : p.WellFormed) (hfree : c.maxSteps = none) (hw : w.Fits c) (hlt : w.steps < limit)
    (hgo : (place p c i w).finished = false) :
    ∃ stop j w', w'.Fits c ∧ w'.steps = w.steps + 1 ∧ (place p c i w).step = (stop, place p c j w') ∧
      (place p (c.withLimit limit) i w).step = (stop, place p (c.withLimit limit) j w') := by
  have hi : i < p.length := by simpa [finished_place] using hgo
  obtain ⟨stop, j, w', hmove⟩ := exists_moves hp i hw
  have hcount := hmove.steps_eq (w.allowed_of_unlimited hfree) hi
  refine ⟨stop, j, w', hmove.fits hw, hcount, step_of_moves hp hw hmove, ?_⟩
  exact step_of_moves hp (hw.withLimit limit) (hmove.withLimit hfree hlt)

/-- at the limit, a step fails and changes nothing -/
theorem step_atLimit (hp : p.WellFormed) (hw : w.Fits c) (hle : limit ≤ w.steps) :
    (place p (c.withLimit limit) i w).step =
      (some (.error ⟨.stepLimitExceeded limit, i, w.pointer⟩), place p (c.withLimit limit) i w) :=
  step_of_moves hp (hw.withLimit limit) (.limit rfl hle)

/-! ## Runs -/

/-- up to the limit, the states are those without a limit, and the count of steps is the number of commands -/
theorem after_withLimit (hp : p.WellFormed) (hfree : c.maxSteps = none) (hw : w.Fits c) (hk : w.steps + k ≤ limit)
    (hgo : ∀ n < k, ((place p c i w).after n).finished = false) :
    ∃ j w', w'.Fits c ∧ w'.steps = w.steps + k ∧ (place p c i w).after k = place p c j w' ∧
      (place p (c.withLimit limit) i w).after k = place p (c.withLimit limit) j w' := by
  induction k with
  | zero => exact ⟨i, w, hw, rfl, rfl, rfl⟩
  | succ k ih =>
    obtain ⟨j, w₁, hw₁, hsteps, h₁, h₂⟩ := ih (by omega) fun n hn => hgo n (Nat.lt_succ_of_lt hn)
    have hgo₁ : (place p c j w₁).finished = false := h₁ ▸ hgo k (Nat.lt_succ_self k)
    have hlt : w₁.steps < limit := by omega
    obtain ⟨stop, j', w₂, hw₂, hcount, hs₁, hs₂⟩ := step_withLimit hp hfree hw₁ hlt hgo₁
    refine ⟨j', w₂, hw₂, by omega, ?_, ?_⟩
    · rw [after, h₁, hs₁]
    · rw [after, h₂, hs₂]

/-- a run that has not ended below the limit stops alike there at every step -/
theorem stops_withLimit (hp : p.WellFormed) (hfree : c.maxSteps = none) (hw : w.Fits c) (hk : w.steps + k ≤ limit)
    (hgo : ∀ n < k, ((place p c i w).after n).finished = false) :
    (∀ n ≤ k, ((place p (c.withLimit limit) i w).after n).finished = ((place p c i w).after n).finished) ∧
      ∀ n < k, ((place p (c.withLimit limit) i w).after n).step.1 = ((place p c i w).after n).step.1 := by
  have hle : ∀ n ≤ k, w.steps + n ≤ limit := fun n hn => Nat.le_trans (Nat.add_le_add_left hn _) hk
  have hstates := fun n (hn : n ≤ k) => after_withLimit hp hfree hw (hle n hn)
    fun l hl => hgo l (Nat.lt_of_lt_of_le hl hn)
  constructor
  · intro n hn
    obtain ⟨j, w', -, -, h₁, h₂⟩ := hstates n hn
    rw [h₁, h₂, finished_place, finished_place]
  · intro n hn
    obtain ⟨j, w', hw', hsteps, h₁, h₂⟩ := hstates n (Nat.le_of_lt hn)
    have hlt : w'.steps < limit := hsteps ▸ hle (n + 1) hn
    obtain ⟨stop, _, _, -, -, hs₁, hs₂⟩ := step_withLimit hp hfree hw' hlt (h₁ ▸ hgo n hn)
    rw [h₁, h₂, hs₁, hs₂]

/-- a run that ends within the limit ends alike -/
theorem ends_withLimit {e : Ending} (hp : p.WellFormed) (hfree : c.maxSteps = none) (hw : w.Fits c)
    (hk : w.steps + k ≤ limit) (h : (place p c i w).Ends k e) : (place p (c.withLimit limit) i w).Ends k e := by
  obtain ⟨hfin, hstop⟩ := stops_withLimit hp hfree hw hk fun n hn => h.unfinished hn
  exact h.congr hfin hstop

/-- a run that goes on at the limit is stopped, in the state that it has there -/
theorem ends_atLimit (hp : p.WellFormed) (hfree : c.maxSteps = none) (hw : w.Fits c) (hk : w.steps + k = limit)
    (h : (place p c i w).Dispatches k) (hgo : ((place p c i w).after k).finished = false) :
    ∃ j w', w'.steps = limit ∧ (place p c i w).after k = place p c j w' ∧
      (place p (c.withLimit limit) i w).after (k + 1) = place p (c.withLimit limit) j w' ∧
      (place p (c.withLimit limit) i w).Ends (k + 1) (.stopped (.error ⟨.stepLimitExceeded limit, j, w'.pointer⟩)) := by
  have hgoes : ∀ n < k, ((place p c i w).after n).finished = false := fun n hn => (h n hn).1
  obtain ⟨hfin, hstop⟩ := stops_withLimit hp hfree hw (Nat.le_of_eq hk) hgoes
  obtain ⟨j, w', hw', hsteps, h₁, h₂⟩ := after_withLimit hp hfree hw (Nat.le_of_eq hk) hgoes
  have hstep := step_atLimit (i := j) hp hw' (Nat.le_of_eq (hsteps.trans hk).symm)
  refine ⟨j, w', hsteps.trans hk, h₁, ?_, .stopped ?_ ?_ ?_⟩
  · rw [after, h₂, hstep]
  · exact h.congr (fun n hn => hfin n (Nat.le_of_lt hn)) hstop
  · rw [hfin k (Nat.le_refl k), hgo]
  · rw [h₂, hstep]

/-! ## Executions -/

/-- an execution that ends within the limit, and the last flush, are the same with the limit and without -/
theorem execute_withLimit {e : Ending} {u v : Nat} (hp : p.WellFormed) (hfree : c.maxSteps = none) (hw : w.Fits c)
    (hk : w.steps + k ≤ limit) (h : (place p c i w).Ends k e) (hu : k ≤ u) (hv : k ≤ v) :
    ∃ e' j w', e' ≠ .unfinished ∧ w'.steps = w.steps + k ∧ (place p c i w).execute u = (e', place p c j w') ∧
      (place p (c.withLimit limit) i w).execute v = (e', place p (c.withLimit limit) j w') := by
  obtain ⟨j, w₁, -, hsteps, h₁, h₂⟩ := after_withLimit hp hfree hw hk fun n hn => h.unfinished hn
  have hrun := h.run_eq hu
  have hrun' := (ends_withLimit hp hfree hw hk h).run_eq hv
  rw [h₁] at hrun
  rw [h₂] at hrun'
  obtain ⟨e', w₂, hended, hcount, hx, hx'⟩ := execute_pair (c.alike_withLimit limit).flushOutput hrun hrun'
  exact ⟨e', j, w₂, fun hnot => h.ne_unfinished (hended.1 hnot), hcount.trans hsteps, hx, hx'⟩

/-- an execution that goes on at the limit is stopped there, and nothing is flushed -/
theorem execute_atLimit {v : Nat} (hp : p.WellFormed) (hfree : c.maxSteps = none) (hw : w.Fits c)
    (hk : w.steps + k = limit) (h : (place p c i w).Dispatches k) (hgo : ((place p c i w).after k).finished = false)
    (hv : k < v) :
    ∃ j w', w'.steps = limit ∧ (place p c i w).after k = place p c j w' ∧
      (place p (c.withLimit limit) i w).execute v =
        (.stopped (.error ⟨.stepLimitExceeded limit, j, w'.pointer⟩), place p (c.withLimit limit) j w') := by
  obtain ⟨j, w', hsteps, hafter, hlast, hends⟩ := ends_atLimit hp hfree hw hk h hgo
  have hrun := hends.run_eq hv
  rw [hlast] at hrun
  refine ⟨j, w', hsteps, hafter, ?_⟩
  simp only [execute, hrun]

end Machine

/-! ## Sessions -/

namespace Session

variable {s : Session σ τ} {job : Job} {m : Machine σ τ} {u v : Nat} {e : Ending}

/-- a program that ends within the limit -/
theorem execute_within (hfree : s.config.maxSteps = none) (hjob : job.Parsed) (hm : s.prepare job = .ok m)
    (h : m.Ends k e) (hk : k ≤ limit) (hu : k ≤ u) (v : Nat) :
    ∃ result m₁ m₂, result ≠ .unfinished ∧ m₁.steps = k ∧ m₁.Agree m₂ ∧ s.execute u job = (result, s.after m₁) ∧
      (s.withLimit limit).execute v job = (result, (s.withLimit limit).after m₂) := by
  obtain ⟨p, hp, rfl, hm'⟩ := exists_places (d := s.config.withLimit limit) hjob rfl hm
  have hfits := World.fits_initial s.config s.feed.source s.sink
  have hpatience : (Machine.place p s.config 0 (.initial s.config s.feed.source s.sink)).patience u = u := by
    simp only [Machine.patience, Machine.place, hfree]
  have hcount : (World.initial s.config s.feed.source s.sink).steps + k ≤ limit := (Nat.zero_add k).symm ▸ hk
  obtain ⟨e', j, w, hended, hsteps, hx, hx'⟩ :=
    Machine.execute_withLimit hp hfree hfits hcount h hu (Nat.le_succ_of_le hk)
  rw [← hpatience] at hx
  refine ⟨_, .place p s.config j w, .place p (s.config.withLimit limit) j w, ?_, hsteps.trans (Nat.zero_add k),
    ⟨rfl, rfl, rfl, rfl, rfl, rfl, rfl⟩, execute_of_prepare hm hx, execute_of_prepare hm' hx'⟩
  cases e' with
  | unfinished => exact absurd rfl hended
  | finished | stopped => simp [Result.of]

/-- a program that goes on at the limit -/
theorem execute_beyond (hfree : s.config.maxSteps = none) (hjob : job.Parsed) (hm : s.prepare job = .ok m)
    (h : m.Dispatches limit) (hgo : (m.after limit).finished = false) (v : Nat) :
    (m.after limit).steps = limit ∧ ∃ m', (m.after limit).Agree m' ∧
      (s.withLimit limit).execute v job =
        (.stopped (.error ⟨.stepLimitExceeded limit, (m.after limit).ip, (m.after limit).pointer⟩),
          (s.withLimit limit).after m') := by
  obtain ⟨p, hp, rfl, hm'⟩ := exists_places (d := s.config.withLimit limit) hjob rfl hm
  have hfits := World.fits_initial s.config s.feed.source s.sink
  obtain ⟨j, w, hsteps, hafter, hx⟩ :=
    Machine.execute_atLimit hp hfree hfits (Nat.zero_add limit) h hgo (Nat.lt_succ_self limit)
  rw [hafter]
  exact ⟨hsteps, .place p (s.config.withLimit limit) j w, ⟨rfl, rfl, rfl, rfl, rfl, rfl, rfl⟩,
    execute_of_prepare hm' hx⟩

end Session

/-- **A step limit is an exact truncation.** Of a program that ends within the limit, the execution has the same result
and leaves the same state and streams as without a limit, whatever patience it is given without one. Every other program
is stopped at the limit, in the state that it has after as many commands. So every execution with a limit ends. -/
theorem step_limit_truncates (s : Session σ τ) (hfree : s.config.maxSteps = none) (limit : Nat) (job : Job)
    (hjob : job.Parsed) :
    s.config.replace [(.maxSteps, .int limit)] = .ok (s.withLimit limit).config ∧
    (∀ e, s.prepare job = .error e → ∀ u v,
      s.execute u job = (.unparsed e, s) ∧ (s.withLimit limit).execute v job = (.unparsed e, s.withLimit limit)) ∧
    (∀ m, s.prepare job = .ok m →
      (∀ k e, m.Ends k e → k ≤ limit → ∀ u v, k ≤ u → ∃ result m₁ m₂,
        result ≠ .unfinished ∧ m₁.steps = k ∧ m₁.Agree m₂ ∧ s.execute u job = (result, s.after m₁) ∧
          (s.withLimit limit).execute v job = (result, (s.withLimit limit).after m₂)) ∧
      ((∀ k e, m.Ends k e → limit < k) → m.Dispatches limit ∧ ∀ v,
        (m.after limit).steps = limit ∧ ∃ m', (m.after limit).Agree m' ∧
          (s.withLimit limit).execute v job =
            (.stopped (.error ⟨.stepLimitExceeded limit, (m.after limit).ip, (m.after limit).pointer⟩),
              (s.withLimit limit).after m'))) ∧
    ∀ v, ((s.withLimit limit).execute v job).1 ≠ .unfinished := by
  refine ⟨s.config.replace_maxSteps limit, ?_, fun m hm => ⟨?_, ?_⟩, fun v => ?_⟩
  · intro e he u v
    have he' : (s.withLimit limit).prepare job = .error e := Session.prepare_withConfig_eq_error rfl he
    simp only [Session.execute, he, he', and_self]
  · intro k e h hk u v hu
    exact Session.execute_within hfree hjob hm h hk hu v
  · intro hbeyond
    rcases m.ends_or_dispatches limit with ⟨k, hk, e, h⟩ | ⟨h, hgo⟩
    · exact absurd hk (Nat.not_le.2 (hbeyond k e h))
    · exact ⟨h, Session.execute_beyond hfree hjob hm h hgo⟩
  · cases hm : s.prepare job with
    | error e =>
      have hm' : (s.withLimit limit).prepare job = .error e := Session.prepare_withConfig_eq_error rfl hm
      simp [Session.execute, hm']
    | ok m =>
      rcases m.ends_or_dispatches limit with ⟨k, hk, e, h⟩ | ⟨h, hgo⟩
      · obtain ⟨result, _, _, hended, -, -, -, hx⟩ := Session.execute_within hfree hjob hm h hk (Nat.le_refl k) v
        rw [hx]
        exact hended
      · obtain ⟨-, m', -, hx⟩ := Session.execute_beyond hfree hjob hm h hgo v
        rw [hx]
        simp

/-- two commands under a limit of two, which end in time, and a loop without an end, which is stopped -/
theorem step_limit_truncates_at_two : ∃ s : Session Source Sink, s.config.maxSteps = none ∧
    (∃ result m₁ m₂, result ≠ .unfinished ∧ m₁.steps = 2 ∧ m₁.Agree m₂ ∧
      s.execute 5 (.script (.text ",+")) = (result, s.after m₁) ∧
      (s.withLimit 2).execute 0 (.script (.text ",+")) = (result, (s.withLimit 2).after m₂)) ∧
    ∃ m', (s.withLimit 2).execute 0 (.script (.text "+[]")) =
      (.stopped (.error ⟨.stepLimitExceeded 2, 2, 0⟩), (s.withLimit 2).after m') := by
  let s : Session Source Sink := .start { tapeLength := 1 } (.replayed (.buffer [7])) (.buffer #[])
  refine ⟨s, rfl, ?_, ?_⟩
  · obtain ⟨m, hm, hends⟩ : ∃ m, s.prepare (.script (.text ",+")) = .ok m ∧ m.Ends 2 .finished := by
      refine ⟨_, rfl, .finished (fun n hn => ?_) (by decide +kernel)⟩
      interval_cases n <;> exact ⟨by decide +kernel, by decide +kernel⟩
    obtain ⟨-, -, hruns, -⟩ := step_limit_truncates s rfl 2 (.script (.text ",+")) trivial
    exact (hruns m hm).1 2 .finished hends (Nat.le_refl 2) 5 0 (by decide)
  · obtain ⟨m, hm, hdispatches, hgo, hip, hpointer⟩ : ∃ m, s.prepare (.script (.text "+[]")) = .ok m ∧
        m.Dispatches 2 ∧ (m.after 2).finished = false ∧ (m.after 2).ip = 2 ∧ (m.after 2).pointer = 0 := by
      refine ⟨_, rfl, fun n hn => ?_, by decide +kernel, by decide +kernel, by decide +kernel⟩
      interval_cases n <;> exact ⟨by decide +kernel, by decide +kernel⟩
    obtain ⟨-, -, hruns, -⟩ := step_limit_truncates s rfl 2 (.script (.text "+[]")) trivial
    obtain ⟨-, m', -, hx⟩ := ((hruns m hm).2 fun k e h => h.lt_of_dispatches hdispatches hgo).2 0
    rw [hip, hpointer] at hx
    exact ⟨m', hx⟩

end Brainfuck
