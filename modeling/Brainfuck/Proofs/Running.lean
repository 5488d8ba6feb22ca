/-
Runs, counted in commands.

- `Machine.Dispatches m k`: the first `k` commands are dispatched, and none of them fails.
- `Machine.Ends m k e`: the run ends with `e` after `k` commands, a failing one counted. The state it ends in is
  `m.after k`. Nothing is said of patience; by `Ends.run_eq` a patience of `k` is enough, and any more changes nothing.
- `Machine.ends_or_dispatches`: a run has ended after `n` commands, or `n` commands were dispatched and there are more.
- `Machine.Ends.le_patience`: the patience of a machine is enough for a run that ends, so an execution runs to the same
  end (`Session.run_of_ends`).
-/
import Brainfuck.Proofs.Trace

namespace Brainfuck

variable {σ τ : Type} [ByteSource σ] [ByteSink τ]

namespace Machine

/-- the first `k` commands are dispatched, and none of them fails -/
def Dispatches (m : Machine σ τ) (k : Nat) : Prop :=
  ∀ n < k, (m.after n).finished = false ∧ (m.after n).step.1 = none

/-- the run ends after `k` commands, a failing one counted -/
inductive Ends (m : Machine σ τ) : Nat → Ending → Prop where
  | finished {k : Nat} : m.Dispatches k → (m.after k).finished = true → Ends m k .finished
  | stopped {k : Nat} {s : Stop} : m.Dispatches k → (m.after k).finished = false → (m.after k).step.1 = some s →
      Ends m (k + 1) (.stopped s)

variable {m : Machine σ τ} {k n : Nat} {e : Ending}

/-! ## States along a run -/

theorem Dispatches.mono (h : m.Dispatches k) (hn : n ≤ k) : m.Dispatches n :=
  fun l hl => h l (Nat.lt_of_lt_of_le hl hn)

theorem dispatches_succ_iff :
    m.Dispatches (k + 1) ↔ m.Dispatches k ∧ (m.after k).finished = false ∧ (m.after k).step.1 = none := by
  constructor
  · intro h
    exact ⟨h.mono (Nat.le_succ k), h k (Nat.lt_succ_self k)⟩
  · rintro ⟨h, hlast⟩ n hn
    rcases Nat.lt_succ_iff_lt_or_eq.1 hn with hn | rfl
    · exact h n hn
    · exact hlast

/-- after `n` commands the run has ended, or it goes on -/
theorem ends_or_dispatches (m : Machine σ τ) (n : Nat) :
    (∃ k ≤ n, ∃ e, m.Ends k e) ∨ m.Dispatches n ∧ (m.after n).finished = false := by
  induction n with
  | zero =>
    have hnone : m.Dispatches 0 := fun n hn => absurd hn (Nat.not_lt_zero n)
    cases hfin : (m.after 0).finished with
    | true => exact .inl ⟨0, Nat.le_refl 0, .finished, .finished hnone hfin⟩
    | false => exact .inr ⟨hnone, rfl⟩
  | succ n ih =>
    rcases ih with ⟨k, hk, e, he⟩ | ⟨hn, hfin⟩
    · exact .inl ⟨k, Nat.le_succ_of_le hk, e, he⟩
    cases hstep : (m.after n).step.1 with
    | some s => exact .inl ⟨n + 1, Nat.le_refl _, .stopped s, .stopped hn hfin hstep⟩
    | none =>
      have hall : m.Dispatches (n + 1) := dispatches_succ_iff.2 ⟨hn, hfin, hstep⟩
      cases hfin' : (m.after (n + 1)).finished with
      | true => exact .inl ⟨n + 1, Nat.le_refl _, .finished, .finished hall hfin'⟩
      | false => exact .inr ⟨hall, rfl⟩

/-- steps one after another -/
theorem after_add (m : Machine σ τ) (k l : Nat) : m.after (k + l) = (m.after k).after l := by
  induction l with
  | zero => rfl
  | succ l ih => rw [← Nat.add_assoc, after, ih, after]

theorem dispatches_add_iff {l : Nat} : m.Dispatches (k + l) ↔ m.Dispatches k ∧ (m.after k).Dispatches l := by
  induction l with
  | zero => exact ⟨fun h => ⟨h, fun n hn => absurd hn (Nat.not_lt_zero n)⟩, And.left⟩
  | succ l ih => rw [← Nat.add_assoc, dispatches_succ_iff, dispatches_succ_iff, ih, after_add, and_assoc]

/-- a run that has come some way ends as what is left of it ends -/
theorem ends_add_iff {l : Nat} (h : m.Dispatches k) : m.Ends (k + l) e ↔ (m.after k).Ends l e := by
  constructor
  · generalize ht : k + l = t
    intro hends
    cases hends with
    | finished ht' hend =>
      subst ht
      rw [after_add] at hend
      exact .finished (dispatches_add_iff.1 ht').2 hend
    | @stopped t _ ht' hgo hs =>
      rcases l with _ | l
      · -- the last command of a part that was dispatched does not stop
        obtain rfl : k = t + 1 := ht
        rw [(h t (Nat.lt_succ_self t)).2] at hs
        cases hs
      · obtain rfl : k + l = t := Nat.succ.inj ht
        rw [after_add] at hgo hs
        exact .stopped (dispatches_add_iff.1 ht').2 hgo hs
  · intro hends
    cases hends with
    | finished hl hend =>
      refine .finished (dispatches_add_iff.2 ⟨h, hl⟩) ?_
      rw [after_add]
      exact hend
    | @stopped l _ hl hgo hs =>
      rw [← after_add] at hgo hs
      exact .stopped (dispatches_add_iff.2 ⟨h, hl⟩) hgo hs

/-! ## Runs and executions -/

theorem run_add_of_dispatches (h : m.Dispatches k) (n : Nat) : m.run (k + n) = (m.after k).run n := by
  induction k generalizing n with
  | zero => rw [Nat.zero_add]; rfl
  | succ k ih =>
    obtain ⟨hk, hfin, hstep⟩ := dispatches_succ_iff.1 h
    have hnext : (m.after k).step = (none, m.after (k + 1)) := Prod.ext hstep rfl
    rw [Nat.add_assoc, Nat.add_comm 1 n, ih hk, run_of_step hfin hnext]

/-- a run that ends after `k` commands needs no more patience than that -/
theorem Ends.run_eq (h : m.Ends k e) (hn : k ≤ n) : m.run n = (e, m.after k) := by
  obtain ⟨l, rfl⟩ := Nat.exists_eq_add_of_le hn
  cases h with
  | finished hk hfin => rw [run_add_of_dispatches hk, run_of_finished hfin]
  | @stopped k s hk hfin hstep =>
    have hnext : (m.after k).step = (some s, m.after (k + 1)) := Prod.ext hstep rfl
    rw [Nat.add_assoc, Nat.add_comm 1 l, run_add_of_dispatches hk, run_of_stop hfin hnext]

/-- a run that goes on after `n` commands has used up a patience of `n` -/
theorem run_of_dispatches (h : m.Dispatches n) (hgo : (m.after n).finished = false) :
    m.run n = (.unfinished, m.after n) := by
  have hrun := run_add_of_dispatches h 0
  rwa [Nat.add_zero, run_zero_of_unfinished hgo] at hrun

/-- more patience does not change a run that has ended -/
theorem run_of_le {u v : Nat} (h : (m.run u).1 ≠ .unfinished) (hu : u ≤ v) : m.run v = m.run u := by
  rcases m.ends_or_dispatches u with ⟨k, hk, e, hends⟩ | ⟨hdispatches, hgo⟩
  · rw [hends.run_eq hk, hends.run_eq (Nat.le_trans hk hu)]
  · rw [run_of_dispatches hdispatches hgo] at h
    exact absurd rfl h

theorem Ends.ne_unfinished (h : m.Ends k e) : e ≠ .unfinished := by
  cases h <;> simp

/-- all commands before the last one are dispatched -/
theorem Ends.dispatches (h : m.Ends k e) (hn : n < k) : m.Dispatches n := by
  cases h with
  | finished hk _ => exact hk.mono (Nat.le_of_lt hn)
  | stopped hk _ _ => exact hk.mono (Nat.le_of_lt_succ hn)

/-- before its end a run is not finished -/
theorem Ends.unfinished (h : m.Ends k e) (hn : n < k) : (m.after n).finished = false := by
  cases h with
  | finished hk _ => exact (hk n hn).1
  | stopped hk hgo _ =>
    rcases Nat.lt_succ_iff_lt_or_eq.1 hn with hn | rfl
    · exact (hk n hn).1
    · exact hgo

/-- a run that goes on after `n` commands ends later -/
theorem Ends.lt_of_dispatches (h : m.Ends k e) (hn : m.Dispatches n) (hgo : (m.after n).finished = false) : n < k := by
  refine Nat.not_le.1 fun hk => ?_
  cases h with
  | finished _ hend =>
    have hgo' : (m.after k).finished = false := by
      rcases Nat.lt_or_eq_of_le hk with hk | rfl
      · exact (hn k hk).1
      · exact hgo
    rw [hend] at hgo'
    cases hgo'
  | @stopped k _ _ _ hs =>
    have hnone := (hn k hk).2
    rw [hs] at hnone
    cases hnone

/-! ## Two machines -/

section Congr

variable {σ' τ' : Type} [ByteSource σ'] [ByteSink τ'] {m' : Machine σ' τ'}

theorem Dispatches.congr (hfin : ∀ n < k, (m'.after n).finished = (m.after n).finished)
    (hstop : ∀ n < k, (m'.after n).step.1 = (m.after n).step.1) (h : m.Dispatches k) : m'.Dispatches k := by
  intro n hn
  rw [hfin n hn, hstop n hn]
  exact h n hn

/-- machines that stop alike up to the end of one run end alike -/
theorem Ends.congr (hfin : ∀ n ≤ k, (m'.after n).finished = (m.after n).finished)
    (hstop : ∀ n < k, (m'.after n).step.1 = (m.after n).step.1) (h : m.Ends k e) : m'.Ends k e := by
  cases h with
  | finished hk hend =>
    have hk' := hk.congr (fun n hn => hfin n (Nat.le_of_lt hn)) hstop
    exact .finished hk' ((hfin k (Nat.le_refl k)).trans hend)
  | @stopped k _ hk hgo hs =>
    have hk' := hk.congr (fun n hn => hfin n (Nat.le_of_lt (Nat.lt_succ_of_lt hn)))
      fun n hn => hstop n (Nat.lt_succ_of_lt hn)
    exact .stopped hk' ((hfin k (Nat.le_succ k)).trans hgo) ((hstop k (Nat.lt_succ_self k)).trans hs)

/-- machines that stop alike in every state that one of them comes to by dispatching -/
theorem dispatches_iff (hfin : ∀ n, m.Dispatches n → (m'.after n).finished = (m.after n).finished)
    (hstop : ∀ n, m.Dispatches n → (m'.after n).step.1 = (m.after n).step.1) (k : Nat) :
    m'.Dispatches k ↔ m.Dispatches k := by
  induction k with
  | zero => exact ⟨fun _ n hn => absurd hn (Nat.not_lt_zero n), fun _ n hn => absurd hn (Nat.not_lt_zero n)⟩
  | succ k ih =>
    rw [dispatches_succ_iff, dispatches_succ_iff, ih]
    apply and_congr_right
    intro hk
    rw [hfin k hk, hstop k hk]

theorem ends_iff (hfin : ∀ n, m.Dispatches n → (m'.after n).finished = (m.after n).finished)
    (hstop : ∀ n, m.Dispatches n → (m'.after n).step.1 = (m.after n).step.1) (k : Nat) (e : Ending) :
    m'.Ends k e ↔ m.Ends k e := by
  have hdispatches := dispatches_iff hfin hstop
  constructor
  · intro h
    cases h with
    | finished hk hend =>
      have hk' := (hdispatches k).1 hk
      exact .finished hk' ((hfin k hk').symm.trans hend)
    | @stopped k _ hk hgo hs =>
      have hk' := (hdispatches k).1 hk
      exact .stopped hk' ((hfin k hk').symm.trans hgo) ((hstop k hk').symm.trans hs)
  · intro h
    cases h with
    | finished hk hend => exact .finished ((hdispatches k).2 hk) ((hfin k hk).trans hend)
    | @stopped k _ hk hgo hs => exact .stopped ((hdispatches k).2 hk) ((hfin k hk).trans hgo) ((hstop k hk).trans hs)

/-- runs of such machines end alike, after as many steps -/
theorem run_congr (hfin : ∀ n, m.Dispatches n → (m'.after n).finished = (m.after n).finished)
    (hstop : ∀ n, m.Dispatches n → (m'.after n).step.1 = (m.after n).step.1) (u : Nat) :
    ∃ k e, (∀ l < k, m.Dispatches l) ∧ m.run u = (e, m.after k) ∧ m'.run u = (e, m'.after k) := by
  rcases m.ends_or_dispatches u with ⟨k, hk, e, h⟩ | ⟨h, hgo⟩
  · exact ⟨k, e, fun l hl => h.dispatches hl, h.run_eq hk, ((ends_iff hfin hstop k e).2 h).run_eq hk⟩
  · have h' := (dispatches_iff hfin hstop u).2 h
    exact ⟨u, .unfinished, fun l hl => h.mono (Nat.le_of_lt hl), run_of_dispatches h hgo,
      run_of_dispatches h' ((hfin u h).trans hgo)⟩

end Congr

/-! ## Patience -/

section Patience

variable {p : Program} {config : Config} {i j : Nat} {w w' : World σ τ}

/-- a step that does not stop is counted -/
theorem steps_of_move (h : Moves p config i w none j w') : w'.steps = w.steps + 1 := by
  cases h with
  | plain _ _ he => exact he.steps_eq
  | skip | enter | leave | again => rfl

omit [ByteSource σ] [ByteSink τ] in
theorem patience_mono (m : Machine σ τ) {u v : Nat} (hu : u ≤ v) : m.patience u ≤ m.patience v := by
  unfold patience
  cases m.config.maxSteps with
  | none => exact hu
  | some limit => exact Nat.le_refl _

/-- the commands that were dispatched are counted, and no more than the limit allows -/
theorem Dispatches.exists_place (hp : p.WellFormed) (hw : w.Fits config)
    (hlimit : ∀ limit, config.maxSteps = some limit → w.steps ≤ limit) (h : (place p config i w).Dispatches k) :
    ∃ j w', (place p config i w).after k = place p config j w' ∧ w'.Fits config ∧ w'.steps = w.steps + k ∧
      ∀ limit, config.maxSteps = some limit → w'.steps ≤ limit := by
  induction k with
  | zero => exact ⟨i, w, rfl, hw, rfl, hlimit⟩
  | succ k ih =>
    obtain ⟨hk, -, hnone⟩ := dispatches_succ_iff.1 h
    obtain ⟨j, w₁, hafter, hw₁, hsteps, hlimit₁⟩ := ih hk
    obtain ⟨stop, j', w₂, hmove⟩ := exists_moves hp j hw₁
    have hstep := step_of_moves hp hw₁ hmove
    rw [hafter, hstep] at hnone
    obtain rfl : stop = none := hnone
    refine ⟨j', w₂, ?_, hmove.fits hw₁, ?_, fun limit hmax => hmove.steps_le hmax (hlimit₁ limit hmax)⟩
    · rw [after, hafter, hstep]
    · rw [steps_of_move hmove, hsteps, Nat.add_assoc]

/-- the patience of a machine is enough for a run that ends -/
theorem Ends.le_patience (hp : p.WellFormed) (hw : w.Fits config) (hzero : w.steps = 0)
    (h : (place p config i w).Ends k e) (hu : k ≤ n) : k ≤ (place p config i w).patience n := by
  have hcount : ∀ l, (place p config i w).Dispatches l → ∀ limit, config.maxSteps = some limit → l ≤ limit := by
    intro l hl limit hmax
    obtain ⟨_, w', -, -, hsteps, hle⟩ := hl.exists_place hp hw fun _ _ => hzero ▸ Nat.zero_le _
    have := hle limit hmax
    omega
  cases hmax : config.maxSteps with
  | none =>
    have hpatience : (place p config i w).patience n = n := by simp only [patience, place, hmax]
    rwa [hpatience]
  | some limit =>
    have hpatience : (place p config i w).patience n = limit + 1 := by simp only [patience, place, hmax]
    rw [hpatience]
    cases h with
    | finished hk _ => exact Nat.le_succ_of_le (hcount _ hk limit hmax)
    | stopped hk _ _ => exact Nat.succ_le_succ (hcount _ hk limit hmax)

end Patience

end Machine

/-! ## Executions -/

section Executions

variable {p : Program} {c : Config} {i : Nat} {w w' : World σ τ} {stop : Option Stop}

omit [ByteSource σ] in
theorem Completes.fits (hw : w.Fits c) (h : Completes c i w stop w') : w'.Fits c := by
  cases h with
  | nothing => exact hw
  | flush | fault => exact ⟨hw.pointer_lt, hw.length_le, hw.growable, hw.growthChunk⟩

/-- an execution leaves the pointer on the tape -/
theorem Machine.exists_place_of_execute (hp : p.WellFormed) (hw : w.Fits c) (u : Nat) :
    ∃ e j w', (place p c i w).execute u = (e, place p c j w') ∧ w'.Fits c := by
  obtain ⟨k, e, hrun⟩ : ∃ k e, (place p c i w).run u = (e, (place p c i w).after k) := by
    rcases (place p c i w).ends_or_dispatches u with ⟨k, hk, e, h⟩ | ⟨h, hgo⟩
    · exact ⟨k, e, h.run_eq hk⟩
    · exact ⟨u, .unfinished, run_of_dispatches h hgo⟩
  obtain ⟨j, w₁, hk, hw₁, -⟩ :=
    exists_after (i := i) hp (P := fun _ _ => True) hw trivial (fun _ _ _ _ _ _ _ => trivial) k
  rw [hk] at hrun
  cases e with
  | finished =>
    obtain ⟨stop, w', hcomplete⟩ := exists_completes c j w₁
    exact ⟨_, j, w', execute_of_completes hrun hcomplete, hcomplete.fits hw₁⟩
  | stopped s => exact ⟨.stopped s, j, w₁, by simp only [execute, hrun], hw₁⟩
  | unfinished => exact ⟨.unfinished, j, w₁, by simp only [execute, hrun], hw₁⟩

end Executions

/-! ## Sessions -/

/-- what a session says of the end of an execution -/
def Result.of (m : Machine σ τ) : Ending → Result
  | .finished => .done m.info
  | .stopped s => .stopped s
  | .unfinished => .unfinished

theorem Session.execute_of_prepare {s : Session σ τ} {job : Job} {m m' : Machine σ τ} {u : Nat} {e : Ending}
    (hm : s.prepare job = .ok m) (hx : m.execute (m.patience u) = (e, m')) :
    s.execute u job = (.of m' e, s.after m') := by
  simp only [execute, hm, hx]
  cases e <;> rfl

/-- more patience does not change an execution that has ended -/
theorem Session.execute_of_le {s : Session σ τ} {job : Job} {u v : Nat} (h : (s.execute u job).1 ≠ .unfinished)
    (hu : u ≤ v) : s.execute v job = s.execute u job := by
  cases hm : s.prepare job with
  | error e => simp only [execute, hm]
  | ok m =>
    have hended : (m.run (m.patience u)).1 ≠ .unfinished := by
      intro hunfinished
      have hrun : m.run (m.patience u) = (.unfinished, (m.run (m.patience u)).2) := Prod.ext hunfinished rfl
      have hx : m.execute (m.patience u) = (.unfinished, (m.run (m.patience u)).2) := by
        rw [Machine.execute, hrun]
      rw [Session.execute_of_prepare hm hx] at h
      exact h rfl
    simp only [execute, hm, Machine.execute, Machine.run_of_le hended (m.patience_mono hu)]

theorem Session.run_of_ends {s : Session σ τ} {job : Job} {m : Machine σ τ} {k u : Nat} {e : Ending}
    (hjob : job.Parsed) (hm : s.prepare job = .ok m) (h : m.Ends k e) (hu : k ≤ u) :
    m.run (m.patience u) = (e, m.after k) := by
  obtain ⟨p, hp, rfl⟩ := Session.exists_place_of_prepare hjob hm
  exact h.run_eq (h.le_patience hp (World.fits_initial _ _ _) rfl hu)

end Brainfuck
