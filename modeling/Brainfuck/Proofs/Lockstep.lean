/-
The bracket table and the scans give the same runs.

`Moves` speaks of pairs of brackets and not of how they are found, so it does not depend on the table
(`Moves.withJumps`). Two machines of the same commands, one with the table and one that scans, therefore go through the
same states (`after_withJumps`), and so do their runs and executions. `table_and_scans_agree` says this of everything that
a session can run.
-/
import Brainfuck.Device
import Brainfuck.Proofs.Running

namespace Brainfuck

open Brainfuck.Bracket

/-- the configuration with the bracket table switched on or off -/
def Config.withJumps (config : Config) (b : Bool) : Config := { config with precomputeJumps := b }

/-- the session with the bracket table switched on or off -/
def Session.withJumps {σ τ : Type} (s : Session σ τ) (b : Bool) : Session σ τ :=
  { s with config := s.config.withJumps b }

namespace Machine

/-- the machines are in the same state, though one may have a table and the other none -/
structure Agree {σ τ : Type} (m m' : Machine σ τ) : Prop where
  ip : m.ip = m'.ip
  pointer : m.pointer = m'.pointer
  steps : m.steps = m'.steps
  tape : m.tape = m'.tape
  outputBytes : m.outputBytes = m'.outputBytes
  source : m.source = m'.source
  sink : m.sink = m'.sink

end Machine

variable {σ τ : Type} [ByteSource σ] [ByteSink τ] {p q : Program} {config : Config}

/-! ## The table does not matter -/

theorem Config.alike_withJumps (config : Config) (b : Bool) : config.Alike (config.withJumps b) :=
  ⟨rfl, rfl, rfl, rfl, rfl⟩

theorem Moves.withJumps {i j : Nat} {stop : Option Stop} {w w' : World σ τ} (b : Bool)
    (hc : q.commands = p.commands) (h : Moves p config i w stop j w') :
    Moves q (config.withJumps b) i w stop j w' := by
  cases h with
  | limit hmax hle => exact .limit hmax hle
  | missing ha hi => exact .missing ha (by rw [hc, hi])
  | plain ha hi he => exact .plain ha (by rw [hc, hi]) (he.congr (config.alike_withJumps b))
  | plainStop ha hi he => exact .plainStop ha (by rw [hc, hi]) (he.congr (config.alike_withJumps b))
  | skip ha hpair h0 => exact .skip ha (by rwa [hc]) h0
  | enter ha hpair h0 => exact .enter ha (by rwa [hc]) h0
  | leave ha hpair h0 => exact .leave ha (by rwa [hc]) h0
  | again ha hpair h0 => exact .again ha (by rwa [hc]) h0

omit [ByteSource σ] [ByteSink τ] in
theorem World.Fits.withJumps {w : World σ τ} (h : w.Fits config) (b : Bool) : w.Fits (config.withJumps b) :=
  ⟨h.pointer_lt, h.length_le, h.growable, h.growthChunk⟩

namespace Machine

/-- one step of both machines -/
theorem step_withJumps (hp : p.WellFormed) (hq : q.WellFormed) (hc : q.commands = p.commands) (b : Bool) (i : Nat)
    {w : World σ τ} (hw : w.Fits config) : ∃ stop j w', w'.Fits config ∧
      (place p config i w).step = (stop, place p config j w') ∧
      (place q (config.withJumps b) i w).step = (stop, place q (config.withJumps b) j w') := by
  obtain ⟨stop, j, w', h⟩ := exists_moves hp i hw
  exact ⟨stop, j, w', h.fits hw, step_of_moves hp hw h, step_of_moves hq (hw.withJumps b) (h.withJumps b hc)⟩

/-- any number of steps of both machines -/
theorem after_withJumps (hp : p.WellFormed) (hq : q.WellFormed) (hc : q.commands = p.commands) (b : Bool) (i : Nat)
    {w : World σ τ} (hw : w.Fits config) (k : Nat) : ∃ j w', w'.Fits config ∧
      (place p config i w).after k = place p config j w' ∧
      (place q (config.withJumps b) i w).after k = place q (config.withJumps b) j w' := by
  induction k with
  | zero => exact ⟨i, w, hw, rfl, rfl⟩
  | succ k ih =>
    obtain ⟨j, w₁, hw₁, h₁, h₂⟩ := ih
    obtain ⟨stop, j', w₂, hw₂, hs₁, hs₂⟩ := step_withJumps hp hq hc b j hw₁
    exact ⟨j', w₂, hw₂, by rw [after, h₁, hs₁], by rw [after, h₂, hs₂]⟩

omit [ByteSource σ] [ByteSink τ] in
theorem finished_withJumps (hc : q.commands = p.commands) (config : Config) (b : Bool) (i : Nat) (w : World σ τ) :
    (place q (config.withJumps b) i w).finished = (place p config i w).finished := by
  rw [finished_place, finished_place, Program.length, Program.length, hc]

/-- a run of both machines -/
theorem run_withJumps (hp : p.WellFormed) (hq : q.WellFormed) (hc : q.commands = p.commands) (b : Bool) (n i : Nat)
    {w : World σ τ} (hw : w.Fits config) : ∃ e j w',
      (place p config i w).run n = (e, place p config j w') ∧
      (place q (config.withJumps b) i w).run n = (e, place q (config.withJumps b) j w') := by
  have hfin := finished_withJumps hc config b i w
  induction n generalizing i w with
  | zero =>
    cases hdone : (place p config i w).finished with
    | true => exact ⟨_, i, w, run_of_finished hdone 0, run_of_finished (hfin.trans hdone) 0⟩
    | false => exact ⟨_, i, w, run_zero_of_unfinished hdone, run_zero_of_unfinished (hfin.trans hdone)⟩
  | succ n ih =>
    cases hdone : (place p config i w).finished with
    | true => exact ⟨_, i, w, run_of_finished hdone _, run_of_finished (hfin.trans hdone) _⟩
    | false =>
      obtain ⟨stop, j, w₁, hw₁, hs₁, hs₂⟩ := step_withJumps hp hq hc b i hw
      cases stop with
      | some s => exact ⟨_, j, w₁, run_of_stop hdone hs₁ n, run_of_stop (hfin.trans hdone) hs₂ n⟩
      | none =>
        rw [run_of_step hdone hs₁, run_of_step (hfin.trans hdone) hs₂]
        exact ih j hw₁ (finished_withJumps hc config b j w₁)

/-- an execution of both machines -/
theorem execute_withJumps (hp : p.WellFormed) (hq : q.WellFormed) (hc : q.commands = p.commands) (b : Bool)
    (n i : Nat) {w : World σ τ} (hw : w.Fits config) : ∃ e j w',
      (place p config i w).execute n = (e, place p config j w') ∧
      (place q (config.withJumps b) i w).execute n = (e, place q (config.withJumps b) j w') := by
  obtain ⟨e, j, w₁, h₁, h₂⟩ := run_withJumps hp hq hc b n i hw
  obtain ⟨e', w₂, -, -, hx₁, hx₂⟩ := execute_pair (config.alike_withJumps b).flushOutput h₁ h₂
  exact ⟨e', j, w₂, hx₁, hx₂⟩

end Machine

/-! ## Sessions -/

/-- parsing looks at the switch only when everything has closed -/
theorem Program.parse_switch (source : Script) (a b : Bool) :
    (∃ p q, parse source a = .ok p ∧ parse source b = .ok q ∧ q.commands = p.commands) ∨
      ∃ e, parse source a = .error e ∧ parse source b = .error e := by
  cases ha : parse source a with
  | error e =>
    refine .inr ⟨e, rfl, ?_⟩
    rw [← ha]
    unfold parse at ha ⊢
    dsimp only at ha ⊢
    split
    · rfl
    · split
      · rfl
      · simp_all
  | ok p =>
    obtain ⟨l, hl, hpending, rfl⟩ := parse_eq_ok_iff.1 ha
    exact .inl ⟨_, _, rfl, parse_eq_ok_iff.2 ⟨l, hl, hpending, rfl⟩, rfl⟩

namespace Job

/-- with the table or without, a job is the same program or the same error -/
theorem program_withJumps {job : Job} (hjob : job.Parsed) (config : Config) (b : Bool) :
    (∃ p q, job.program config = .ok p ∧ job.program (config.withJumps b) = .ok q ∧
        p.WellFormed ∧ q.WellFormed ∧ q.commands = p.commands) ∨
      ∃ e, job.program config = .error e ∧ job.program (config.withJumps b) = .error e := by
  have hsame :
      (∃ p q, job.program config = .ok p ∧ job.program (config.withJumps b) = .ok q ∧ q.commands = p.commands) ∨
        ∃ e, job.program config = .error e ∧ job.program (config.withJumps b) = .error e := by
    cases job with
    | script source => exact Program.parse_switch source config.precomputeJumps b
    | parsed p =>
      exact .inl ⟨_, _, rfl, rfl, (p.commands_ite_withTable b).trans (p.commands_ite_withTable _).symm⟩
  rcases hsame with ⟨p, q, hp, hq, hc⟩ | hfail
  · exact .inl ⟨p, q, hp, hq, wellFormed_of_program hjob hp, wellFormed_of_program hjob hq, hc⟩
  · exact .inr hfail

end Job

/-- what is seen of two prepared machines, or of two errors in their place -/
def SameRuns : Except ParseError (Machine σ τ) → Except ParseError (Machine σ τ) → Prop
  | .ok m, .ok m' => ∀ k, (m.after k).Agree (m'.after k) ∧ (m.after k).step.1 = (m'.after k).step.1
  | .error e, .error e' => e = e'
  | _, _ => False

namespace Session

omit [ByteSource σ] [ByteSink τ] in
theorem prepare_withJumps_eq_place (s : Session σ τ) {job : Job} {b : Bool}
    (h : job.program (s.config.withJumps b) = .ok p) :
    (s.withJumps b).prepare job = .ok (.place p (s.config.withJumps b) 0 (.initial s.config s.feed.source s.sink)) :=
  (s.withJumps b).prepare_eq_place h

/-- jobs of the same commands, one session with a table and the other without, or both alike -/
theorem sameRuns_of_commands (s : Session σ τ) {b : Bool} {job job' : Job} (h₁ : job.program s.config = .ok p)
    (h₂ : job'.program (s.config.withJumps b) = .ok q) (hp : p.WellFormed) (hq : q.WellFormed)
    (hc : q.commands = p.commands) : SameRuns (s.prepare job) ((s.withJumps b).prepare job') := by
  rw [s.prepare_eq_place h₁, s.prepare_withJumps_eq_place h₂]
  intro k
  have hfits := World.fits_initial s.config s.feed.source s.sink
  obtain ⟨j, w, hw, hk₁, hk₂⟩ := Machine.after_withJumps hp hq hc b 0 hfits k
  obtain ⟨stop, _, _, _, hs₁, hs₂⟩ := Machine.step_withJumps hp hq hc b j hw
  rw [hk₁, hk₂, hs₁, hs₂]
  exact ⟨⟨rfl, rfl, rfl, rfl, rfl, rfl, rfl⟩, rfl⟩

theorem sameRuns_withJumps (s : Session σ τ) {job : Job} (hjob : job.Parsed) (b : Bool) :
    SameRuns (s.prepare job) ((s.withJumps b).prepare job) := by
  rcases job.program_withJumps hjob s.config b with ⟨p, q, h₁, h₂, hp, hq, hc⟩ | ⟨e, h₁, h₂⟩
  · exact s.sameRuns_of_commands h₁ h₂ hp hq hc
  · rw [s.prepare_eq_error h₁, (s.withJumps b).prepare_eq_error h₂]
    rfl

/-- what a caller sees of an execution and of the session after it -/
def SameOutcome (r r' : Result × Session σ τ) : Prop :=
  r'.1 = r.1 ∧ r'.2.feed = r.2.feed ∧ r'.2.sink = r.2.sink

/-- executions that end alike, in one world, have the same outcome -/
theorem sameOutcome_of_execute {s s' : Session σ τ} {job job' : Job} {m m' : Machine σ τ} {c d : Config} {u i : Nat}
    {e : Ending} {w : World σ τ} (hfeed : s'.feed = s.feed) (hlength : q.length = p.length)
    (htimed : d.benchExecution = c.benchExecution) (hm : s.prepare job = .ok m) (hm' : s'.prepare job' = .ok m')
    (hx : m.execute (m.patience u) = (e, .place p c i w)) (hx' : m'.execute (m'.patience u) = (e, .place q d i w)) :
    SameOutcome (s.execute u job) (s'.execute u job') := by
  have hinfo : (Machine.place q d i w : Machine σ τ).info = (Machine.place p c i w).info := by
    simp only [Machine.info, Machine.place, hlength, htimed]
  rw [execute_of_prepare hm hx, execute_of_prepare hm' hx']
  refine ⟨?_, by simp only [after, hfeed]; rfl, rfl⟩
  cases e with
  | finished => exact congrArg Result.done hinfo
  | stopped | unfinished => rfl

theorem sameOutcome_of_commands (s : Session σ τ) {b : Bool} {job job' : Job} (h₁ : job.program s.config = .ok p)
    (h₂ : job'.program (s.config.withJumps b) = .ok q) (hp : p.WellFormed) (hq : q.WellFormed)
    (hc : q.commands = p.commands) (unlimited : Nat) :
    SameOutcome (s.execute unlimited job) ((s.withJumps b).execute unlimited job') := by
  have hfits := World.fits_initial s.config s.feed.source s.sink
  obtain ⟨e, j, w, hx₁, hx₂⟩ := Machine.execute_withJumps hp hq hc b
    ((Machine.place p s.config 0 (.initial s.config s.feed.source s.sink)).patience unlimited) 0 hfits
  have htimed : (s.config.withJumps b).benchExecution = s.config.benchExecution := rfl
  exact sameOutcome_of_execute rfl (congrArg Array.size hc) htimed (s.prepare_eq_place h₁)
    (s.prepare_withJumps_eq_place h₂) hx₁ hx₂

/-- two jobs of the same commands in one session -/
theorem exists_prepare_of_commands (s : Session σ τ) {job job' : Job} (hjob : job.Parsed) (hjob' : job'.Parsed)
    (hp : job.program s.config = .ok p) (hq : job'.program s.config = .ok q) (hc : q.commands = p.commands) :
    ∃ m m', s.prepare job = .ok m ∧ s.prepare job' = .ok m' ∧ SameRuns (.ok m) (.ok m') ∧
      ∀ u, SameOutcome (s.execute u job) (s.execute u job') := by
  have hpw := Job.wellFormed_of_program hjob hp
  have hqw := Job.wellFormed_of_program hjob' hq
  -- both jobs run in the session as it is
  have hself : s.withJumps s.config.precomputeJumps = s := rfl
  have hruns := s.sameRuns_of_commands (b := s.config.precomputeJumps) hp hq hpw hqw hc
  have houtcome := s.sameOutcome_of_commands (b := s.config.precomputeJumps) hp hq hpw hqw hc
  rw [hself] at hruns
  simp only [hself] at houtcome
  have hm := s.prepare_eq_place hp
  have hm' := s.prepare_eq_place hq
  rw [hm, hm'] at hruns
  exact ⟨_, _, hm, hm', hruns, houtcome⟩

theorem execute_withJumps (s : Session σ τ) {job : Job} (hjob : job.Parsed) (b : Bool) (unlimited : Nat) :
    SameOutcome (s.execute unlimited job) ((s.withJumps b).execute unlimited job) := by
  rcases job.program_withJumps hjob s.config b with ⟨p, q, h₁, h₂, hp, hq, hc⟩ | ⟨e, h₁, h₂⟩
  · exact s.sameOutcome_of_commands h₁ h₂ hp hq hc unlimited
  · simp only [execute, s.prepare_eq_error h₁, (s.withJumps b).prepare_eq_error h₂]
    exact ⟨rfl, rfl, rfl⟩

end Session

/-- **The table and the scans give the same runs.** Two sessions that differ only in whether the bracket table is built
prepare machines that agree after every number of steps and stop alike, or refuse the program with the same error; and
every execution has the same result and leaves the same streams. -/
theorem table_and_scans_agree (s : Session σ τ) (b : Bool) (job : Job) (hjob : job.Parsed) :
    SameRuns (s.prepare job) ((s.withJumps b).prepare job) ∧
      ∀ unlimited, Session.SameOutcome (s.execute unlimited job) ((s.withJumps b).execute unlimited job) :=
  ⟨s.sameRuns_withJumps hjob b, s.execute_withJumps hjob b⟩

/-- a program without a table, which one session gives a table and the other scans -/
theorem table_and_scans_agree_countdown : ∃ (s : Session Source Sink) (p : Program), (Job.parsed p).Parsed ∧
    p.table = none ∧ s.config.precomputeJumps = true ∧
    SameRuns (s.prepare (.parsed p)) ((s.withJumps false).prepare (.parsed p)) := by
  have hparsed : (Job.parsed ⟨#[.input, .loopStart, .decrement, .loopStart, .output, .decrement, .loopEnd, .loopEnd],
    #[0, 1, 2, 3, 4, 5, 6, 7], none⟩).Parsed := ⟨.text ",[-[.-]]", false, rfl⟩
  exact ⟨.start default (.replayed (.buffer [2])) (.buffer #[]), _, hparsed, rfl, rfl,
    (table_and_scans_agree _ false _ hparsed).1⟩

end Brainfuck
