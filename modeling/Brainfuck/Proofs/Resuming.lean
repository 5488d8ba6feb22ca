/-
Where a debugger stops.

- `CanStep d k`: the debugger can make `k` more steps that succeed. `remaining d`: how many it can make, or `⊤` if there
  is no end to them. Such steps lead to `ahead d k`, and one more that stops to `stoppedAt d k s`.
- A count of steps is used up, or the steps that remain are (`step_eq_min`); two counts one after the other are their
  sum (`step_add`).
- `Meets d k`: after `k` steps the machine is finished or stands on a breakpoint. `Resumes d k d'`: where `resume`
  should stop, and after how many steps. A step that succeeds without meeting anything is followed by the next one
  (`resume_ahead`), so `resume` stops there and nowhere else (`resume_eq_some_iff`), or never
  (`resume_eq_none_iff`).
- `debugger_stops_exactly`: all of it, for every state of a debugger of a program that can be parsed.
-/
import Mathlib.Data.ENat.Lattice
import Mathlib.Order.CompletePartialOrder
import Brainfuck.Proofs.Debugging

namespace Brainfuck

namespace Debugger

variable {d d' : Debugger} {j k n count done patience : Nat} {s : Stop}

/-! ## The steps that remain -/

/-- the debugger can make so many more steps that succeed -/
def CanStep (d : Debugger) (k : Nat) : Prop := k = 0 ∨ d.failure = none ∧ d.machine.Dispatches k

/-- how many more steps can succeed -/
noncomputable def remaining (d : Debugger) : ℕ∞ := ⨆ k : {k : Nat // d.CanStep k}, (k : ℕ∞)

/-- the debugger after so many steps that succeed -/
def ahead (d : Debugger) (k : Nat) : Debugger := { d with machine := d.machine.after k }

/-- the debugger after so many steps that succeed, and one that stops -/
def stoppedAt (d : Debugger) (k : Nat) (s : Stop) : Debugger :=
  { d with machine := d.machine.after (k + 1), failure := some s }

theorem ahead_ahead (d : Debugger) (j k : Nat) : (d.ahead j).ahead k = d.ahead (j + k) := by
  simp only [ahead, Machine.after_add]

theorem halted_stoppedAt (d : Debugger) (k : Nat) (s : Stop) : (d.stoppedAt k s).halted = true := by
  simp [halted, stoppedAt]

theorem canStep_succ_iff :
    d.CanStep (k + 1) ↔ d.CanStep k ∧ (d.ahead k).halted = false ∧ (d.machine.after k).step.1 = none := by
  have hhalted : (d.ahead k).halted = false ↔ (d.machine.after k).finished = false ∧ d.failure = none := by
    simp [halted, ahead]
  rw [hhalted, CanStep, Machine.dispatches_succ_iff]
  constructor
  · rintro (h | ⟨hnone, hk, hgo, hstep⟩)
    · cases h
    · exact ⟨.inr ⟨hnone, hk⟩, ⟨hgo, hnone⟩, hstep⟩
  · rintro ⟨hk, ⟨hgo, hnone⟩, hstep⟩
    refine .inr ⟨hnone, ?_, hgo, hstep⟩
    rcases hk with rfl | ⟨-, hk⟩
    · exact fun n hn => absurd hn (Nat.not_lt_zero n)
    · exact hk

theorem CanStep.mono (h : d.CanStep k) (hn : n ≤ k) : d.CanStep n := by
  rcases h with rfl | ⟨hnone, hk⟩
  · exact .inl (Nat.le_zero.1 hn)
  · exact .inr ⟨hnone, hk.mono hn⟩

theorem natCast_le_remaining_iff : (k : ℕ∞) ≤ d.remaining ↔ d.CanStep k := by
  constructor
  · intro hle
    by_contra hk
    -- every number of steps that can be made is below `k`, so their supremum is
    have hbound : d.remaining ≤ (k - 1 : Nat) := by
      refine iSup_le fun ⟨j, hj⟩ => Nat.cast_le.2 ?_
      have hjk : j < k := Nat.lt_of_not_le fun hkj => hk (hj.mono hkj)
      exact Nat.le_sub_one_of_lt hjk
    have hpos : k ≠ 0 := fun h0 => hk (.inl h0)
    have : k ≤ k - 1 := Nat.cast_le.1 (hle.trans hbound)
    omega
  · exact fun hk => le_iSup (fun k : {k : Nat // d.CanStep k} => (k : ℕ∞)) ⟨k, hk⟩

theorem remaining_eq_top_iff : d.remaining = ⊤ ↔ ∀ k, d.CanStep k := by
  constructor
  · intro htop k
    exact natCast_le_remaining_iff.1 (htop ▸ le_top)
  · intro hall
    rw [ENat.eq_top_iff_forall_ge]
    exact fun k => natCast_le_remaining_iff.2 (hall k)

/-- the last of the steps that remain leads to where the debugger is halted, or where the next one stops it -/
theorem halted_or_stops (hk : d.remaining = k) : d.CanStep k ∧
    ((d.ahead k).halted = true ∨ (d.ahead k).halted = false ∧ ∃ s, (d.machine.after k).step.1 = some s) := by
  have hcan : d.CanStep k := natCast_le_remaining_iff.1 hk.ge
  have hlast : ¬ d.CanStep (k + 1) := by
    rw [← natCast_le_remaining_iff, hk, Nat.cast_le]
    exact Nat.not_succ_le_self k
  refine ⟨hcan, ?_⟩
  cases hhalted : (d.ahead k).halted with
  | true => exact .inl rfl
  | false =>
    rw [canStep_succ_iff] at hlast
    refine .inr ⟨rfl, Option.ne_none_iff_exists'.1 fun hnone => hlast ⟨hcan, hhalted, hnone⟩⟩

/-! ## Counted steps -/

theorem stepFrom_succ_of_none (hgo : d.halted = false) (h : d.machine.step.1 = none) :
    d.stepFrom done (count + 1) = (d.ahead 1).stepFrom (done + 1) count := by
  have hstep : d.machine.step = (none, d.machine.after 1) := Prod.ext h rfl
  rw [stepFrom, if_neg (by simp [hgo]), hstep]
  rfl

theorem stepFrom_succ_of_some (hgo : d.halted = false) (h : d.machine.step.1 = some s) :
    d.stepFrom done (count + 1) = (done, d.stoppedAt 0 s) := by
  have hstep : d.machine.step = (some s, d.machine.after 1) := Prod.ext h rfl
  rw [stepFrom, if_neg (by simp [hgo]), hstep]
  rfl

/-- steps that succeed are made, and what is left of the count is counted from there -/
theorem stepFrom_ahead (h : d.CanStep k) : d.stepFrom done (k + count) = (d.ahead k).stepFrom (done + k) count := by
  induction k generalizing count with
  | zero => rw [Nat.zero_add]; rfl
  | succ k ih =>
    obtain ⟨hk, hgo, hnone⟩ := canStep_succ_iff.1 h
    calc d.stepFrom done (k + 1 + count)
        = d.stepFrom done (k + (count + 1)) := by rw [Nat.add_right_comm, Nat.add_assoc]
      _ = (d.ahead k).stepFrom (done + k) (count + 1) := ih hk
      _ = ((d.ahead k).ahead 1).stepFrom (done + k + 1) count := stepFrom_succ_of_none hgo hnone
      _ = (d.ahead (k + 1)).stepFrom (done + (k + 1)) count := by rw [ahead_ahead, Nat.add_assoc]

theorem step_eq_stepFrom (d : Debugger) (n : Nat) : d.step n = d.stepFrom 0 n := by rw [step, Int.toNat_natCast]

theorem step_of_canStep (h : d.CanStep n) : d.step n = (n, d.ahead n) := by
  have hall : d.stepFrom 0 (n + 0) = (d.ahead n).stepFrom (0 + n) 0 := stepFrom_ahead h
  rw [Nat.add_zero, Nat.zero_add] at hall
  rw [step_eq_stepFrom, hall]
  rfl

theorem step_of_halted_ahead (h : d.CanStep k) (hk : k ≤ n) (hhalted : (d.ahead k).halted = true) :
    d.step n = (k, d.ahead k) := by
  obtain ⟨count, rfl⟩ := Nat.exists_eq_add_of_le hk
  rw [step_eq_stepFrom, stepFrom_ahead h, stepFrom_of_halted hhalted, Nat.zero_add]

theorem step_of_stops (h : d.CanStep k) (hk : k < n) (hgo : (d.ahead k).halted = false)
    (hs : (d.machine.after k).step.1 = some s) : d.step n = (k, d.stoppedAt k s) := by
  obtain ⟨count, rfl⟩ := Nat.exists_eq_add_of_lt hk
  rw [step_eq_stepFrom, Nat.add_assoc, stepFrom_ahead h, stepFrom_succ_of_some hgo hs, Nat.zero_add]
  rfl

/-- the steps that remain are made, if the count allows -/
theorem step_eq_min (d : Debugger) (n : Nat) : ((d.step n).1 : ℕ∞) = min (n : ℕ∞) d.remaining := by
  rcases le_or_gt (n : ℕ∞) d.remaining with hle | hlt
  · rw [step_of_canStep (natCast_le_remaining_iff.1 hle), min_eq_left hle]
  · obtain ⟨k, hk⟩ := ENat.ne_top_iff_exists.1 hlt.ne_top
    rw [← hk, Nat.cast_lt] at hlt
    rw [← hk, min_eq_right (Nat.cast_le.2 hlt.le)]
    obtain ⟨hcan, hhalted | ⟨hgo, s, hs⟩⟩ := halted_or_stops hk.symm
    · rw [step_of_halted_ahead hcan hlt.le hhalted]
    · rw [step_of_stops hcan hlt hgo hs]

/-- the steps made before are only counted -/
theorem stepFrom_eq (d : Debugger) (done count : Nat) :
    d.stepFrom done count = (done + (d.stepFrom 0 count).1, (d.stepFrom 0 count).2) := by
  induction count generalizing d done with
  | zero => rfl
  | succ count ih =>
    cases hgo : d.halted with
    | true => rw [stepFrom_of_halted hgo, stepFrom_of_halted hgo, Nat.add_zero]
    | false =>
      cases hstep : d.machine.step.1 with
      | none => rw [stepFrom_succ_of_none hgo hstep, stepFrom_succ_of_none hgo hstep, ih, ih _ (0 + 1), Nat.zero_add,
          Nat.add_assoc]
      | some s => rw [stepFrom_succ_of_some hgo hstep, stepFrom_succ_of_some hgo hstep, Nat.add_zero]

theorem stepFrom_add (d : Debugger) (done a b : Nat) :
    d.stepFrom done (a + b) = (d.stepFrom done a).2.stepFrom (d.stepFrom done a).1 b := by
  induction a generalizing d done with
  | zero => rw [Nat.zero_add]; rfl
  | succ a ih =>
    rw [Nat.add_right_comm]
    cases hgo : d.halted with
    | true => simp only [stepFrom_of_halted hgo]
    | false =>
      cases hstep : d.machine.step.1 with
      | none => simp only [stepFrom_succ_of_none hgo hstep, ih]
      | some s => simp only [stepFrom_succ_of_some hgo hstep, stepFrom_of_halted (halted_stoppedAt d 0 s)]

/-- two counts, one after the other, are their sum -/
theorem step_add (d : Debugger) (a b : Nat) :
    d.step (a + b : Nat) = ((d.step a).1 + ((d.step a).2.step b).1, ((d.step a).2.step b).2) := by
  simp only [step_eq_stepFrom]
  rw [stepFrom_add, stepFrom_eq]

/-- a count that is negative counts nothing -/
theorem step_of_nonpos (d : Debugger) {count : Int} (h : count ≤ 0) : d.step count = (0, d) := by
  rw [step, Int.toNat_of_nonpos h]
  rfl

/-! ## Steps to a breakpoint -/

/-- after so many steps the machine is finished, or the next command has a breakpoint -/
def Meets (d : Debugger) (k : Nat) : Prop :=
  (d.machine.after k).finished = true ∨ ((d.machine.after k).ip : Int) ∈ d.breakpoints

/-- where `resume` stops, and after how many steps that succeed -/
inductive Resumes (d : Debugger) : Nat → Debugger → Prop where
  | halted : d.halted = true → Resumes d 0 d
  | met {k : Nat} : IsLeast {k | 1 ≤ k ∧ d.CanStep k ∧ d.Meets k} k → Resumes d k (d.ahead k)
  | stopped {k : Nat} {s : Stop} : d.remaining = k → (∀ j, 1 ≤ j → j ≤ k → ¬ d.Meets j) → (d.ahead k).halted = false →
      (d.machine.after k).step.1 = some s → Resumes d k (d.stoppedAt k s)

theorem meets_iff : d.Meets k ↔ (d.ahead k).machine.finished = true ∨ (d.ahead k).atBreakpoint = true := by
  rw [Meets, atBreakpoint, List.contains_iff_mem]
  rfl

theorem step_one_of_none (hgo : d.halted = false) (h : d.machine.step.1 = none) : d.step 1 = (1, d.ahead 1) :=
  stepFrom_succ_of_none hgo h

theorem step_one_of_some (hgo : d.halted = false) (h : d.machine.step.1 = some s) : d.step 1 = (0, d.stoppedAt 0 s) :=
  stepFrom_succ_of_some hgo h

theorem resume_of_step_one (h : d.step 1 = (n, d')) : d.resume patience = d'.resumeFrom n patience := by
  rw [resume, h]

theorem resumeFrom_of_halted (h : d.halted = true) : d.resumeFrom done (patience + 1) = some (done, d) := by
  rw [resumeFrom, h, Bool.true_or, if_pos rfl]

theorem resumeFrom_of_meets (h : d.Meets k) :
    (d.ahead k).resumeFrom done (patience + 1) = some (done, d.ahead k) := by
  have hstop : ((d.ahead k).halted || (d.ahead k).atBreakpoint) = true := by
    rcases meets_iff.1 h with hfin | hbreak
    · rw [halted, hfin, Bool.true_or, Bool.true_or]
    · rw [hbreak, Bool.or_true]
  rw [resumeFrom, if_pos hstop]

theorem resumeFrom_of_step_one (hgo : (d.ahead k).halted = false) (hno : ¬ d.Meets k)
    (h : (d.ahead k).step 1 = (n, d')) :
    (d.ahead k).resumeFrom done (patience + 1) = d'.resumeFrom (done + n) patience := by
  have hbreak : (d.ahead k).atBreakpoint = false := by
    by_contra hbreak
    exact hno (meets_iff.2 (.inr (Bool.eq_true_of_not_eq_false hbreak)))
  rw [resumeFrom, hgo, hbreak, Bool.false_or, if_neg Bool.false_ne_true, h]

/-- steps that succeed and meet nothing are made, one after the other -/
theorem resume_ahead (h : d.CanStep (k + 1)) (hno : ∀ j, 1 ≤ j → j ≤ k → ¬ d.Meets j) :
    d.resume (k + patience) = (d.ahead (k + 1)).resumeFrom (k + 1) patience := by
  induction k generalizing patience with
  | zero =>
    obtain ⟨-, hgo, hnone⟩ := canStep_succ_iff.1 h
    have hstep : d.step 1 = (1, d.ahead 1) := step_one_of_none hgo hnone
    rw [Nat.zero_add, resume_of_step_one hstep]
  | succ k ih =>
    obtain ⟨hk, hgo, hnone⟩ := canStep_succ_iff.1 h
    have hstep := step_one_of_none hgo hnone
    rw [ahead_ahead] at hstep
    calc d.resume (k + 1 + patience)
        = d.resume (k + (patience + 1)) := by rw [Nat.add_right_comm, Nat.add_assoc]
      _ = (d.ahead (k + 1)).resumeFrom (k + 1) (patience + 1) := ih hk fun j hj hle => hno j hj (Nat.le_succ_of_le hle)
      _ = (d.ahead (k + 1 + 1)).resumeFrom (k + 1 + 1) patience :=
        resumeFrom_of_step_one hgo (hno (k + 1) (Nat.succ_pos k) (Nat.le_refl _)) hstep

theorem Resumes.not_meets (h : d.Resumes k d') (hj : 1 ≤ j) (hlt : j < k) : ¬ d.Meets j := by
  cases h with
  | halted => exact absurd hlt (Nat.not_lt_zero j)
  | met hleast =>
    intro hmeet
    exact absurd (hleast.2 ⟨hj, hleast.1.2.1.mono hlt.le, hmeet⟩) (Nat.not_le.2 hlt)
  | stopped _ hno _ _ => exact hno j hj hlt.le

/-- `resume` stops where it should, if the patience allows so many steps -/
theorem Resumes.resume_eq (h : d.Resumes k d') (hk : k < patience) : d.resume patience = some (k, d') := by
  obtain ⟨extra, rfl⟩ := Nat.exists_eq_add_of_lt hk
  cases h with
  | halted h => exact resume_of_halted h _
  | met hleast =>
    have hmet := Resumes.met hleast
    obtain ⟨⟨hpos, hcan, hmeets⟩, -⟩ := hleast
    obtain ⟨k, rfl⟩ := Nat.exists_eq_succ_of_ne_zero (Nat.one_le_iff_ne_zero.1 hpos)
    have hno : ∀ j, 1 ≤ j → j ≤ k → ¬ d.Meets j := fun j hj hle => hmet.not_meets hj (Nat.lt_succ_of_le hle)
    rw [show k.succ + extra + 1 = k + (extra + 1 + 1) by omega, resume_ahead hcan hno, resumeFrom_of_meets hmeets]
  | @stopped k s hk hno hgo hs =>
    have hcan := (halted_or_stops hk).1
    have hstep := step_one_of_some hgo hs
    cases k with
    | zero =>
      have hfirst : d.step 1 = (0, d.stoppedAt 0 s) := hstep
      rw [resume_of_step_one hfirst]
      exact resumeFrom_of_halted (halted_stoppedAt d 0 s)
    | succ k =>
      have hsplit : k + 1 + extra + 1 = k + (extra + 1 + 1) := by omega
      rw [hsplit, resume_ahead hcan fun j hj hle => hno j hj (Nat.le_succ_of_le hle),
        resumeFrom_of_step_one hgo (hno (k + 1) (Nat.succ_pos k) (Nat.le_refl _)) hstep]
      exact resumeFrom_of_halted (halted_stoppedAt d (k + 1) s)

/-- nothing is met and no step stops: there is no end to it -/
theorem resume_eq_none (hall : d.remaining = ⊤) (hno : ∀ j, 1 ≤ j → ¬ d.Meets j) : d.resume patience = none := by
  have hahead : d.resume (patience + 0) = (d.ahead (patience + 1)).resumeFrom (patience + 1) 0 :=
    resume_ahead (remaining_eq_top_iff.1 hall _) fun j hj _ => hno j hj
  rw [Nat.add_zero] at hahead
  rw [hahead]
  rfl

/-- there is a place to stop at, or there is none to be met -/
theorem exists_resumes_or (d : Debugger) :
    (∃ k d', d.Resumes k d') ∨ d.remaining = ⊤ ∧ ∀ j, 1 ≤ j → ¬ d.Meets j := by
  by_cases hmeet : ∃ k, 1 ≤ k ∧ d.CanStep k ∧ d.Meets k
  · classical
    exact .inl ⟨_, _, .met ⟨Nat.find_spec hmeet, fun _ => Nat.find_min' hmeet⟩⟩
  · have hno : ∀ j, 1 ≤ j → d.CanStep j → ¬ d.Meets j := fun j hj hcan hm => hmeet ⟨j, hj, hcan, hm⟩
    rcases eq_or_ne d.remaining ⊤ with htop | htop
    · exact .inr ⟨htop, fun j hj => hno j hj (remaining_eq_top_iff.1 htop j)⟩
    · obtain ⟨k, hk⟩ := ENat.ne_top_iff_exists.1 htop
      obtain ⟨hcan, hhalted | ⟨hgo, s, hs⟩⟩ := halted_or_stops hk.symm
      · cases k with
        | zero => exact .inl ⟨0, d, .halted hhalted⟩
        | succ k =>
          -- steps were made, so nothing had stopped the machine: it is finished
          have hnone : d.failure = none := (hcan.resolve_left (Nat.succ_ne_zero k)).1
          have hfin : (d.machine.after (k + 1)).finished = true := by simpa [halted, ahead, hnone] using hhalted
          exact absurd (.inl hfin) (hno (k + 1) (Nat.succ_pos k) hcan)
      · exact .inl ⟨k, _, .stopped hk.symm (fun j hj hle => hno j hj (hcan.mono hle)) hgo hs⟩

theorem resume_mono {r : Nat × Debugger} (h : d.resume patience = some r) (extra : Nat) :
    d.resume (patience + extra) = some r := by
  induction extra with
  | zero => exact h
  | succ extra ih => exact resumeFrom_succ ih

theorem resume_eq_some_iff : (∃ patience, d.resume patience = some (k, d')) ↔ d.Resumes k d' := by
  refine ⟨?_, fun h => ⟨k + 1, h.resume_eq (Nat.lt_succ_self k)⟩⟩
  rintro ⟨patience, hresume⟩
  rcases d.exists_resumes_or with ⟨l, d₁, h⟩ | ⟨htop, hno⟩
  · have hl : d.resume (patience + (l + 1)) = some (l, d₁) := h.resume_eq (by omega)
    rw [resume_mono hresume, Option.some.injEq, Prod.mk.injEq] at hl
    obtain ⟨rfl, rfl⟩ := hl
    exact h
  · rw [resume_eq_none htop hno] at hresume
    cases hresume

theorem resume_eq_none_iff :
    (∀ patience, d.resume patience = none) ↔ d.remaining = ⊤ ∧ ∀ j, 1 ≤ j → ¬ d.Meets j := by
  refine ⟨fun hnone => ?_, fun ⟨htop, hno⟩ _ => resume_eq_none htop hno⟩
  rcases d.exists_resumes_or with ⟨k, d', h⟩ | h
  · have hsome := h.resume_eq (Nat.lt_succ_self k)
    rw [hnone] at hsome
    cases hsome
  · exact h

/-- on the buffers of a debugger a step stops with an error of the machine -/
theorem Tracks.exists_error_ahead {code : Script} {config : Config} {input : List UInt8} {m : Machine Source Sink}
    {l : Nat} (hm : (session config input).prepare (.script code) = .ok m) (h : Tracks m l d)
    (hgo : (d.ahead k).halted = false) (hs : (d.machine.after k).step.1 = some s) : ∃ e, s = .error e := by
  simp only [halted, ahead, Bool.or_eq_false_iff] at hgo
  obtain ⟨hunfinished, hnone⟩ := hgo
  cases h with
  | stopped _ _ _ hf => simp [hf] at hnone
  | running _ hmachine _ =>
    rw [hmachine, ← Machine.after_add] at hunfinished hs
    exact (after_buffers hm (l + k)).2 hunfinished s hs

end Debugger

/-- **A debugger stops exactly where it should.** In every state that operations lead to, a count of steps followed by
another is their sum; the steps that remain are made if the count allows, the step that stops is tried only if the count
goes beyond them, and a count that is not positive does nothing. With any breakpoints, `resume` stops after the least
number of steps, not zero, that lead to the end or to a breakpoint; if a step stops before that, it stops there with the
error; a halted debugger stays where it is. Nothing else makes it stop. -/
theorem debugger_stops_exactly (code : Script) (config : Config) (input : List UInt8) (memoryRange programRange : Int)
    (p : Program) (hp : Program.parse code config.precomputeJumps = .ok p) :
    ∃ d₀, Debugger.start code config input memoryRange programRange = .ok d₀ ∧
      ∀ l d, Debugger.Reaches d₀ l d →
        (∀ a b : Nat, d.step (a + b : Nat) = ((d.step a).1 + ((d.step a).2.step b).1, ((d.step a).2.step b).2)) ∧
        (∀ k : Nat, (k : ℕ∞) ≤ d.remaining ↔ d.CanStep k) ∧
        (∀ n : Nat, ((d.step n).1 : ℕ∞) = min (n : ℕ∞) d.remaining) ∧
        (∀ n : Nat, (n : ℕ∞) ≤ d.remaining → (d.step n).2 = d.ahead n) ∧
        (∀ n k : Nat, d.remaining = k → k < n →
          (d.ahead k).halted = true ∧ (d.step n).2 = d.ahead k ∨
          (d.ahead k).halted = false ∧ ∃ e, (d.machine.after k).step.1 = some (.error e) ∧
            (d.step n).2 = d.stoppedAt k (.error e)) ∧
        (∀ count : Int, count ≤ 0 → d.step count = (0, d)) ∧
        ∀ breakpoints, let d₁ := { d with breakpoints }
          (∀ k d', (∃ patience, d₁.resume patience = some (k, d')) ↔ d₁.Resumes k d') ∧
          (∀ k d', d₁.Resumes k d' →
            (∀ patience, k < patience → d₁.resume patience = some (k, d')) ∧
            (∀ j, 1 ≤ j → j < k → ¬ d₁.Meets j) ∧
            (d₁.halted = false → 1 ≤ k ∨ ∃ e, d'.failure = some (.error e))) ∧
          ((∀ patience, d₁.resume patience = none) ↔ d₁.remaining = ⊤ ∧ ∀ j, 1 ≤ j → ¬ d₁.Meets j) := by
  obtain ⟨m, d₀, hm, hstart, hall⟩ := Debugger.exists_start input memoryRange programRange hp
  refine ⟨d₀, hstart, fun l d hd => ?_⟩
  have htracks := hall l d hd
  refine ⟨d.step_add, fun k => Debugger.natCast_le_remaining_iff, d.step_eq_min, fun n hn => ?_, fun n k hk hlt => ?_,
    fun count => d.step_of_nonpos, fun breakpoints => ⟨fun k d' => Debugger.resume_eq_some_iff,
      fun k d' h => ⟨fun patience => h.resume_eq, fun j => h.not_meets, fun hgo => ?_⟩, Debugger.resume_eq_none_iff⟩⟩
  · rw [Debugger.step_of_canStep (Debugger.natCast_le_remaining_iff.1 hn)]
  · obtain ⟨hcan, hhalted | ⟨hgo, s, hs⟩⟩ := Debugger.halted_or_stops hk
    · exact .inl ⟨hhalted, by rw [Debugger.step_of_halted_ahead hcan hlt.le hhalted]⟩
    · obtain ⟨e, rfl⟩ := htracks.exists_error_ahead hm hgo hs
      exact .inr ⟨hgo, e, hs, by rw [Debugger.step_of_stops hcan hlt hgo hs]⟩
  · cases h with
    | halted hhalted => exact absurd hhalted (by simp [hgo])
    | met hleast => exact .inl hleast.1.1
    | stopped _ _ hunhalted hs =>
      obtain ⟨e, rfl⟩ := (htracks.congr rfl rfl).exists_error_ahead hm hunhalted hs
      exact .inr ⟨e, rfl⟩

/-- a breakpoint inside a loop is met twice; then the loop is left, and the command behind it fails -/
theorem debugger_stops_exactly_in_loop : ∃ d₀ d₁ d₂ d₃ : Debugger,
    Debugger.start (.text "++[-]<") default [] 10 30 = .ok d₀ ∧ d₀.remaining = 7 ∧
    (d₀.toggle 3).2.Resumes 3 d₁ ∧ d₁.machine.ip = 3 ∧ d₁.Resumes 2 d₂ ∧ d₂.machine.ip = 3 ∧ d₂.Resumes 2 d₃ ∧
    d₃.failure = some (.error ⟨.tapeUnderflow, 5, 0⟩) := by
  obtain ⟨d₀, hstart, hall⟩ := debugger_stops_exactly (.text "++[-]<") default [] 10 30 _ rfl
  have hsteps : (Debugger.start (.text "++[-]<") default [] 10 30).toOption.map (fun d => (d.step 9).1) = some 7 := by
    decide +kernel
  have hruns : (Debugger.start (.text "++[-]<") default [] 10 30).toOption.bind (fun d =>
      ((d.toggle 3).2.resume 9).bind fun a => (a.2.resume 9).bind fun b => (b.2.resume 9).map fun c =>
        ((a.1, b.1, c.1), (a.2.machine.ip, b.2.machine.ip), c.2.failure)) =
      some ((3, 2, 2), (3, 3), some (.error ⟨.tapeUnderflow, 5, 0⟩)) := by decide +kernel
  rw [hstart] at hsteps hruns
  simp only [Except.toOption, Option.bind_some, Option.map_some, Option.some.injEq] at hsteps hruns
  obtain ⟨⟨k₁, d₁⟩, h₁, hruns⟩ := Option.bind_eq_some_iff.1 hruns
  obtain ⟨⟨k₂, d₂⟩, h₂, hruns⟩ := Option.bind_eq_some_iff.1 hruns
  obtain ⟨⟨k₃, d₃⟩, h₃, hruns⟩ := Option.map_eq_some_iff.1 hruns
  simp only [Prod.mk.injEq] at hruns
  obtain ⟨⟨rfl, rfl, rfl⟩, ⟨hip₁, hip₂⟩, hfailure⟩ := hruns
  have hreaches : Debugger.Reaches d₀ 0 (d₀.toggle 3).2 := .perform 0 (.toggle 3) .start rfl
  have hreaches₁ := hreaches.perform 9 .resume h₁
  have hreaches₂ := hreaches₁.perform 9 .resume h₂
  obtain ⟨-, -, hmin, -, -, -, -⟩ := hall _ _ .start
  obtain ⟨-, -, -, -, -, -, hresume⟩ := hall _ _ hreaches
  obtain ⟨-, -, -, -, -, -, hresume₁⟩ := hall _ _ hreaches₁
  obtain ⟨-, -, -, -, -, -, hresume₂⟩ := hall _ _ hreaches₂
  have hcounted : (d₀.step (9 : Nat)).1 = 7 := hsteps
  have hseven := hmin 9
  rw [hcounted] at hseven
  refine ⟨d₀, d₁, d₂, d₃, hstart, ?_, ((hresume (d₀.toggle 3).2.breakpoints).1 3 d₁).1 ⟨9, h₁⟩, hip₁,
    ((hresume₁ d₁.breakpoints).1 2 d₂).1 ⟨9, h₂⟩, hip₂, ((hresume₂ d₂.breakpoints).1 2 d₃).1 ⟨9, h₃⟩, hfailure⟩
  rcases min_choice ((9 : Nat) : ℕ∞) d₀.remaining with hnine | hremaining
  · rw [hnine, Nat.cast_inj] at hseven
    exact absurd hseven (by decide)
  · rw [← hremaining, ← hseven]
    rfl

end Brainfuck
