/-
The debugger does not change the execution.

- `Debugger.Operation`, `Debugger.perform`: what can be asked of a debugger, and what it leaves together with the number
  of steps that succeeded. `Debugger.Reaches d₀ k d`: some operations on `d₀` leave `d`, after `k` such steps in all.
- `Debugger.Tracks m k d`: the debugger has the machine `m` after `k` steps that succeeded, or, if it was stopped, what
  the next step made of that. Every operation keeps this (`Tracks.perform`, and by induction `Reaches.tracks`).
- `Tracks.ends`: where a debugger is halted, the run of its machine ends. Its streams are buffers, which never fail
  (`Machine.after_buffers`), so what stopped it is an error of the machine, and the last flush of an execution does
  nothing (`Machine.complete_of_buffer`).
- `debugger_follows_machine`: all of this for a program that can be parsed.
-/
import Brainfuck.Debugger.Order
import Brainfuck.Proofs.Streams

namespace Brainfuck

/-! ## Operations -/

namespace Debugger

/-- what can be asked of a debugger -/
inductive Operation where
  | step (count : Int)
  | resume
  | toggle (ip : Int)
  | handle (line : List Char)
  /-- show cells, or the program, the memory or the state -/
  | look
deriving DecidableEq, Repr

/-- how many steps succeed when an order is carried out -/
def stepped (patience : Nat) (d : Debugger) : Order → Nat
  | .step count => (d.step count).1
  | .resume => ((d.resume patience).map Prod.fst).getD 0
  | _ => 0

/-- how many steps succeed, and the debugger afterwards; `none` if the program does not stop within the patience -/
def perform (patience : Nat) (d : Debugger) : Operation → Option (Nat × Debugger)
  | .step count => some (d.step count)
  | .resume => d.resume patience
  | .toggle ip => some (0, (d.toggle ip).2)
  | .handle line => (d.handle patience line).map fun r => (d.stepped patience (Order.read line), r.debugger)
  | .look => some (0, d)

/-- operations on `d₀` leave this debugger, after so many steps that succeeded -/
inductive Reaches (d₀ : Debugger) : Nat → Debugger → Prop where
  | start : Reaches d₀ 0 d₀
  | perform {k n : Nat} {d d' : Debugger} (patience : Nat) (op : Operation) : Reaches d₀ k d →
      d.perform patience op = some (n, d') → Reaches d₀ (k + n) d'

/-! ## Patience -/

section Patience

variable {patience : Nat} {d : Debugger}

theorem resumeFrom_succ {done : Nat} {r : Nat × Debugger} (h : d.resumeFrom done patience = some r) :
    d.resumeFrom done (patience + 1) = some r := by
  induction patience generalizing d done with
  | zero => cases h
  | succ patience ih =>
    unfold resumeFrom at h ⊢
    split
    · next hstop => rwa [if_pos hstop] at h
    · next hgo =>
      rw [if_neg hgo] at h
      exact ih h

theorem obey_succ {order : Order} {r : Reply} (h : d.obey patience order = some r) :
    d.obey (patience + 1) order = some r := by
  cases order with
  | resume =>
    obtain ⟨n, hresume, hreply⟩ := Option.map_eq_some_iff.1 h
    exact Option.map_eq_some_iff.2 ⟨n, resumeFrom_succ hresume, hreply⟩
  | _ => exact h

theorem stepped_succ {order : Order} {r : Reply} (h : d.obey patience order = some r) :
    d.stepped (patience + 1) order = d.stepped patience order := by
  cases order with
  | resume =>
    obtain ⟨n, hresume, -⟩ := Option.map_eq_some_iff.1 h
    have hmore : d.resume (patience + 1) = some n := resumeFrom_succ hresume
    simp only [stepped, hresume, hmore]
  | _ => rfl

/-- what an operation comes to does not depend on the patience, if that is enough -/
theorem perform_succ {op : Operation} {r : Nat × Debugger} (h : d.perform patience op = some r) :
    d.perform (patience + 1) op = some r := by
  cases op with
  | resume => exact resumeFrom_succ h
  | handle line =>
    obtain ⟨reply, hreply, hr⟩ := Option.map_eq_some_iff.1 h
    refine Option.map_eq_some_iff.2 ⟨reply, obey_succ hreply, ?_⟩
    rw [stepped_succ hreply]
    exact hr
  | _ => exact h

end Patience

/-! ## The machine of a debugger -/

variable {m : Machine Source Sink} {k n patience : Nat} {d d' : Debugger}

/-- the debugger has the machine after `k` steps that succeeded, or what the next step made of it when it stopped -/
inductive Tracks (m : Machine Source Sink) (k : Nat) (d : Debugger) : Prop where
  | running : m.Dispatches k → d.machine = m.after k → d.failure = none → Tracks m k d
  | stopped {s : Stop} : m.Dispatches k → (m.after k).finished = false → (m.after k).step = (some s, d.machine) →
      d.failure = some s → Tracks m k d

theorem Tracks.congr (h : Tracks m k d) (hmachine : d'.machine = d.machine) (hfailure : d'.failure = d.failure) :
    Tracks m k d' := by
  cases h with
  | running hk hm hf => exact .running hk (hmachine.trans hm) (hfailure.trans hf)
  | stopped hk hgo hs hf => exact .stopped hk hgo (hs.trans (by rw [hmachine])) (hfailure.trans hf)

/-- steps go on where the steps before ended -/
theorem Tracks.stepFrom (h : Tracks m k d) (done count : Nat) :
    ∃ r d', d.stepFrom done count = (done + r, d') ∧ Tracks m (k + r) d' := by
  induction count generalizing d k done with
  | zero => exact ⟨0, d, rfl, h⟩
  | succ count ih =>
    unfold Debugger.stepFrom
    cases hd : d.halted with
    | true => exact ⟨0, d, by simp, h⟩
    | false =>
      simp only [halted, Bool.or_eq_false_iff] at hd
      obtain ⟨hgo, hnone⟩ := hd
      cases h with
      | stopped _ _ _ hf => simp [hf] at hnone
      | running hk hm hf =>
        rw [hm] at hgo ⊢
        cases hstep : (m.after k).step with
        | mk stop m' =>
          have hafter : m.after (k + 1) = m' := congrArg Prod.snd hstep
          cases stop with
          | some s =>
            exact ⟨0, { d with machine := m', failure := some s }, by simp, .stopped hk hgo hstep rfl⟩
          | none =>
            have hk' : m.Dispatches (k + 1) := Machine.dispatches_succ_iff.2 ⟨hk, hgo, congrArg Prod.fst hstep⟩
            obtain ⟨r, d', hsteps, h'⟩ := ih (d := { d with machine := m' }) (.running hk' hafter.symm hf) (done + 1)
            refine ⟨1 + r, d', ?_, ?_⟩
            · rw [← Nat.add_assoc]
              exact hsteps
            · rw [← Nat.add_assoc]
              exact h'

theorem Tracks.step (h : Tracks m k d) (count : Int) : Tracks m (k + (d.step count).1) (d.step count).2 := by
  obtain ⟨r, d', hsteps, h'⟩ := h.stepFrom 0 count.toNat
  rw [Debugger.step, hsteps, Nat.zero_add]
  exact h'

theorem Tracks.resumeFrom (h : Tracks m k d) {done : Nat} (hd : d.resumeFrom done patience = some (n, d')) :
    ∃ r, n = done + r ∧ Tracks m (k + r) d' := by
  induction patience generalizing d k done with
  | zero => cases hd
  | succ patience ih =>
    unfold Debugger.resumeFrom at hd
    split at hd
    · cases hd
      exact ⟨0, rfl, h⟩
    · obtain ⟨r, hn, h'⟩ := ih (h.step 1) hd
      exact ⟨(d.step 1).1 + r, hn.trans (Nat.add_assoc done _ r), by rwa [← Nat.add_assoc]⟩

theorem Tracks.resume (h : Tracks m k d) (hd : d.resume patience = some (n, d')) : Tracks m (k + n) d' := by
  obtain ⟨r, rfl, h'⟩ := (h.step 1).resumeFrom hd
  rwa [← Nat.add_assoc]

theorem Tracks.obey (h : Tracks m k d) {order : Order} {r : Reply} (hd : d.obey patience order = some r) :
    Tracks m (k + d.stepped patience order) r.debugger := by
  cases order with
  | step count =>
    cases hd
    exact h.step count
  | resume =>
    obtain ⟨⟨n, d'⟩, hresume, rfl⟩ := Option.map_eq_some_iff.1 hd
    have hn : d.stepped patience .resume = n := by simp only [stepped, hresume, Option.map_some, Option.getD_some]
    rw [hn]
    exact h.resume hresume
  | toggle ip =>
    cases hd
    exact h.congr rfl rfl
  | _ =>
    cases hd
    exact h

theorem Tracks.perform (h : Tracks m k d) {op : Operation} (hd : d.perform patience op = some (n, d')) :
    Tracks m (k + n) d' := by
  cases op with
  | step count =>
    have hstep : d.step count = (n, d') := Option.some.inj hd
    have h' := h.step count
    rwa [hstep] at h'
  | resume => exact h.resume hd
  | toggle ip =>
    cases hd
    exact h.congr rfl rfl
  | handle line =>
    obtain ⟨r, hr, heq⟩ := Option.map_eq_some_iff.1 hd
    cases heq
    exact h.obey hr
  | look =>
    cases hd
    exact h

theorem Reaches.tracks {d₀ : Debugger} (h₀ : Tracks m 0 d₀) (h : Reaches d₀ k d) : Tracks m k d := by
  induction h with
  | start => exact h₀
  | perform _ _ _ hd ih => exact ih.perform hd

/-! ## A halted debugger -/

theorem stepFrom_of_halted (h : d.halted = true) (done count : Nat) : d.stepFrom done count = (done, d) := by
  cases count with
  | zero => rfl
  | succ count => simp [stepFrom, h]

theorem step_of_halted (h : d.halted = true) (count : Int) : d.step count = (0, d) := stepFrom_of_halted h 0 _

theorem resume_of_halted (h : d.halted = true) (patience : Nat) : d.resume (patience + 1) = some (0, d) := by
  simp [resume, step_of_halted h, resumeFrom, h]

/-- every operation on a halted debugger ends, makes no step, and leaves the machine and the failure as they are -/
theorem perform_of_halted (h : d.halted = true) (op : Operation) :
    ∃ d', (∀ patience, d.perform (patience + 1) op = some (0, d')) ∧ d'.machine = d.machine ∧
      d'.failure = d.failure := by
  cases op with
  | step count => exact ⟨d, fun _ => congrArg some (step_of_halted h count), rfl, rfl⟩
  | resume => exact ⟨d, fun patience => resume_of_halted h patience, rfl, rfl⟩
  | toggle ip => exact ⟨(d.toggle ip).2, fun _ => rfl, rfl, rfl⟩
  | look => exact ⟨d, fun _ => rfl, rfl, rfl⟩
  | handle line =>
    simp only [perform, handle]
    cases Order.read line with
    | step count =>
      refine ⟨d, fun patience => ?_, rfl, rfl⟩
      simp [obey, stepped, step_of_halted h]
    | resume =>
      refine ⟨d, fun patience => ?_, rfl, rfl⟩
      simp [obey, stepped, resume_of_halted h]
    | toggle ip => exact ⟨(d.toggle ip).2, fun _ => rfl, rfl, rfl⟩
    | _ => exact ⟨d, fun _ => rfl, rfl, rfl⟩

/-- nothing that is done to a halted debugger makes a step or touches its machine -/
theorem Reaches.of_halted (h : d.halted = true) (hd : Reaches d k d') :
    k = 0 ∧ d'.machine = d.machine ∧ d'.failure = d.failure := by
  induction hd with
  | start => exact ⟨rfl, rfl, rfl⟩
  | @perform k n d₁ d₂ patience op _ hd ih =>
    obtain ⟨rfl, hmachine, hfailure⟩ := ih
    have h₁ : d₁.halted = true := by rwa [halted, hmachine, hfailure]
    obtain ⟨d₃, hends, hmachine', hfailure'⟩ := perform_of_halted h₁ op
    obtain ⟨rfl, rfl⟩ := Prod.mk.inj (Option.some.inj ((perform_succ hd).symm.trans (hends patience)))
    exact ⟨rfl, hmachine'.trans hmachine, hfailure'.trans hfailure⟩

/-- the end of the run that a halted debugger has come to -/
theorem Tracks.ends (h : Tracks m k d) (hd : d.halted = true) :
    (d.failure = none → m.Ends k .finished ∧ d.machine = m.after k) ∧
      ∀ s, d.failure = some s → m.Ends (k + 1) (.stopped s) ∧ d.machine = m.after (k + 1) := by
  cases h with
  | running hk hm hf =>
    have hfin : (m.after k).finished = true := by
      rw [← hm]
      simpa [halted, hf] using hd
    refine ⟨fun _ => ⟨.finished hk hfin, hm⟩, fun s hs => ?_⟩
    rw [hf] at hs
    cases hs
  | @stopped s hk hgo hs hf =>
    refine ⟨fun hnone => ?_, fun s' hs' => ?_⟩
    · rw [hf] at hnone
      cases hnone
    · rw [hf] at hs'
      cases hs'
      exact ⟨.stopped hk hgo (congrArg Prod.fst hs), (congrArg Prod.snd hs).symm⟩

end Debugger

/-! ## Buffers never fail -/

theorem Sink.write_buffer (data : Array UInt8) (b : UInt8) :
    ByteSink.write b (Sink.buffer data) = (none, .buffer (data.push b)) := by
  simp only [ByteSink.write, put, push_byte]

theorem Sink.flush_buffer (data : Array UInt8) : ByteSink.flush (Sink.buffer data) = (none, .buffer data) := rfl

/-- a buffer stays a buffer when it is read -/
theorem sourcesAlike_buffer : SourcesAlike fun s s' : Source => s = s' ∧ ∃ rest, s = .buffer rest where
  next := by
    rintro _ _ reading rest ⟨rfl, bytes, rfl⟩ hread
    refine ⟨rest, hread, rfl, ?_⟩
    cases bytes <;> exact ⟨_, (congrArg Prod.snd hread).symm⟩

/-- a buffer stays a buffer when it is written to -/
theorem sinksAlike_buffer : SinksAlike fun t t' : Sink => t = t' ∧ ∃ data, t = .buffer data where
  write := by
    rintro _ _ b fault rest ⟨rfl, data, rfl⟩ hwrite
    rw [Sink.write_buffer] at hwrite
    exact ⟨rest, (Sink.write_buffer data b).trans hwrite, rfl, _, (congrArg Prod.snd hwrite).symm⟩
  flush := by
    rintro _ _ fault rest ⟨rfl, data, rfl⟩ hflush
    exact ⟨rest, hflush, rfl, data, (congrArg Prod.snd hflush).symm⟩

section Buffers

variable {p : Program} {config : Config} {i j : Nat} {s : Stop} {w w' : World Source Sink} {rest : List UInt8}
  {data : Array UInt8}

/-- on buffers a command stops with an error of the machine -/
theorem Effect.exists_error {c : Command} (hsource : w.source = .buffer rest) (hsink : w.sink = .buffer data)
    (h : Effect config i c w (some s) w') : ∃ e, s = .error e := by
  cases h with
  | writeFault hwrite =>
    rw [hsink, Sink.write_buffer] at hwrite
    cases hwrite
  | flushFault hwrite _ hflush =>
    rw [hsink, Sink.write_buffer] at hwrite
    cases hwrite
    rw [Sink.flush_buffer] at hflush
    cases hflush
  | readFault hread =>
    rw [hsource] at hread
    cases rest <;> cases hread
  | _ => exact ⟨_, rfl⟩

theorem Moves.exists_error (hi : i < p.length) (hsource : w.source = .buffer rest) (hsink : w.sink = .buffer data)
    (h : Moves p config i w (some s) j w') : ∃ e, s = .error e := by
  cases h with
  | limit => exact ⟨_, rfl⟩
  | missing _ hc => exact absurd hi (Nat.not_lt.2 (Array.getElem?_eq_none_iff.1 hc))
  | plainStop _ _ he => exact he.exists_error hsource hsink

namespace Machine

/-- a machine on buffers stays on buffers, and an unfinished one stops with an error of its own -/
theorem after_buffers (hp : p.WellFormed) (hw : w.Fits config) (hsource : w.source = .buffer rest)
    (hsink : w.sink = .buffer data) (k : Nat) :
    (∃ data', ((place p config i w).after k).sink = .buffer data') ∧
      (((place p config i w).after k).finished = false →
        ∀ s, ((place p config i w).after k).step.1 = some s → ∃ e, s = .error e) := by
  have hself : World.Alike (fun s s' : Source => s = s' ∧ ∃ rest, s = .buffer rest)
      (fun t t' : Sink => t = t' ∧ ∃ data, t = .buffer data) w w :=
    .onStreams (s := w.source) (t := w.sink) ⟨rfl, rest, hsource⟩ ⟨rfl, data, hsink⟩
  have halike := (after_alike (i := i) hp sourcesAlike_buffer sinksAlike_buffer hw hself k).1
  obtain ⟨j, w', hk, hw', -⟩ :=
    exists_after (i := i) (P := fun _ _ => True) hp hw trivial (fun _ _ _ _ _ _ _ => trivial) k
  rw [hk] at halike ⊢
  obtain ⟨-, rest', hrest⟩ := halike.source
  obtain ⟨-, data', hdata⟩ := halike.sink
  refine ⟨⟨data', hdata⟩, fun hgo s hs => ?_⟩
  have hj : j < p.length := by simpa [finished_place] using hgo
  obtain ⟨stop, j', w₁, hmove⟩ := exists_moves hp j hw'
  rw [step_of_moves hp hw' hmove] at hs
  subst hs
  exact hmove.exists_error hj hrest hdata

theorem complete_of_buffer {σ : Type} {m : Machine σ Sink} (h : m.sink = .buffer data) : m.complete = (none, m) := by
  unfold complete
  split
  · rfl
  · rw [h, Sink.flush_buffer]
    simp only [← h]

/-- an execution comes to what its run comes to, as there is nothing to flush at the end -/
theorem execute_of_buffer {σ : Type} [ByteSource σ] {m m' : Machine σ Sink} {u : Nat} {e : Ending}
    (hrun : m.run u = (e, m')) (h : m'.sink = .buffer data) : m.execute u = (e, m') := by
  cases e with
  | finished => simp only [execute, hrun, complete_of_buffer h]
  | stopped | unfinished => simp only [execute, hrun]

end Machine

end Buffers

/-! ## The debugger and the execution -/

namespace Debugger

variable {code : Script} {config : Config} {input : List UInt8} {m : Machine Source Sink} {k u : Nat} {d : Debugger}

/-- the session of a debugger -/
def session (config : Config) (input : List UInt8) : Session Source Sink :=
  .start config (.replayed (.buffer input)) (.buffer #[])

/-- a program that can be parsed has a debugger, and operations on it follow the machine of its session -/
theorem exists_start (input : List UInt8) (memoryRange programRange : Int) {p : Program}
    (hp : Program.parse code config.precomputeJumps = .ok p) :
    ∃ m d₀, (session config input).prepare (.script code) = .ok m ∧
      start code config input memoryRange programRange = .ok d₀ ∧ ∀ k d, Reaches d₀ k d → Tracks m k d := by
  have hm : (session config input).prepare (.script code) = _ := (session config input).prepare_eq_place hp
  have hstart : start code config input memoryRange programRange = .ok ⟨_, [], none, memoryRange, programRange⟩ :=
    congrArg (Except.map fun m => (⟨m, [], none, memoryRange, programRange⟩ : Debugger)) hm
  exact ⟨_, _, hm, hstart, fun k d hd => hd.tracks (.running (fun n hn => absurd hn (Nat.not_lt_zero n)) rfl rfl)⟩

/-- where the machine is after any number of steps -/
theorem exists_place (hm : (session config input).prepare (.script code) = .ok m) (k : Nat) :
    ∃ (p : Program) (i : Nat) (w : World Source Sink), p.WellFormed ∧ w.Fits config ∧ i ≤ p.length ∧
      m.after k = .place p config i w := by
  obtain ⟨p, hp, rfl⟩ := Session.exists_place_of_prepare (Job.parsed_script code) hm
  obtain ⟨i, w, hplace, hw, hi⟩ := Machine.exists_after (i := 0) hp (P := fun i _ => i ≤ p.length)
    (World.fits_initial config (Source.buffer input) (Sink.buffer #[])) (Nat.zero_le _)
    (fun _ _ _ _ _ hmove hle => hmove.le_length hle) k
  exact ⟨p, i, w, hp, hw, hi, hplace⟩

theorem after_buffers (hm : (session config input).prepare (.script code) = .ok m) (k : Nat) :
    (∃ data, (m.after k).sink = .buffer data) ∧
      ((m.after k).finished = false → ∀ s, (m.after k).step.1 = some s → ∃ e, s = .error e) := by
  obtain ⟨p, hp, rfl⟩ := Session.exists_place_of_prepare (Job.parsed_script code) hm
  exact Machine.after_buffers hp (World.fits_initial config (.buffer input) (.buffer #[])) rfl rfl k

theorem Tracks.exists_error (hm : (session config input).prepare (.script code) = .ok m) (h : Tracks m k d) {s : Stop}
    (hs : d.failure = some s) : ∃ e, s = .error e := by
  cases h with
  | running _ _ hf =>
    rw [hf] at hs
    cases hs
  | stopped _ hgo hstep hf =>
    obtain rfl := Option.some.inj (hf.symm.trans hs)
    exact (after_buffers hm k).2 hgo _ (congrArg Prod.fst hstep)

theorem execute_of_run (hm : (session config input).prepare (.script code) = .ok m) {e : Ending}
    (hrun : m.run (m.patience u) = (e, m.after k)) :
    (session config input).execute u (.script code) =
      (.of (m.after k) e, (session config input).after (m.after k)) := by
  obtain ⟨data, hdata⟩ := (after_buffers hm k).1
  exact Session.execute_of_prepare hm (Machine.execute_of_buffer hrun hdata)

/-- the execution ends where a halted debugger is -/
theorem Tracks.execute (hm : (session config input).prepare (.script code) = .ok m) (h : Tracks m k d)
    (hd : d.halted = true) (hu : k < u) :
    (d.failure = none → (session config input).execute u (.script code) =
      (.done d.machine.info, (session config input).after d.machine)) ∧
      ∀ s, d.failure = some s → (session config input).execute u (.script code) =
        (.stopped s, (session config input).after d.machine) := by
  obtain ⟨hfinished, hstopped⟩ := h.ends hd
  refine ⟨fun hnone => ?_, fun s hs => ?_⟩
  · obtain ⟨hends, hlast⟩ := hfinished hnone
    rw [hlast]
    exact execute_of_run hm (Session.run_of_ends (Job.parsed_script code) hm hends (Nat.le_of_lt hu))
  · obtain ⟨hends, hlast⟩ := hstopped s hs
    rw [hlast]
    exact execute_of_run hm (Session.run_of_ends (Job.parsed_script code) hm hends hu)

end Debugger

/-- **The debugger does not change the execution.** The program can be parsed, so there is a debugger of it. After any
operations whose steps succeeded `k` times in all, its machine is the prepared one after `k` steps, and after a failing
one if it was stopped, which is then by an error of the machine. Where it is halted, every operation ends without a
step, none changes the machine any more, and the execution of the program ends: in this machine, or with that error. -/
theorem debugger_follows_machine (code : Script) (config : Config) (input : List UInt8)
    (memoryRange programRange : Int) (p : Program) (hp : Program.parse code config.precomputeJumps = .ok p) :
    let session := Debugger.session config input
    ∃ m d₀, session.prepare (.script code) = .ok m ∧
      Debugger.start code config input memoryRange programRange = .ok d₀ ∧
      ∀ k d, Debugger.Reaches d₀ k d →
        d.Tracks m k ∧ (∀ s, d.failure = some s → ∃ e, s = .error e) ∧
        (d.halted = true →
          (∀ op, ∃ d', ∀ patience, d.perform (patience + 1) op = some (0, d')) ∧
          (∀ l d', Debugger.Reaches d l d' → l = 0 ∧ d'.machine = d.machine ∧ d'.failure = d.failure) ∧
          (∀ count, d.step count = (0, d)) ∧ (∀ patience, d.resume (patience + 1) = some (0, d)) ∧
          ∀ u, k < u →
            (d.failure = none →
              session.execute u (.script code) = (.done d.machine.info, session.after d.machine)) ∧
            ∀ s, d.failure = some s → session.execute u (.script code) = (.stopped s, session.after d.machine)) := by
  intro session
  obtain ⟨m, d₀, hm, hstart, hall⟩ := Debugger.exists_start input memoryRange programRange hp
  refine ⟨m, d₀, hm, hstart, fun k d hd => ?_⟩
  have htracks := hall k d hd
  refine ⟨htracks, fun s hs => htracks.exists_error hm hs, fun hhalted => ?_⟩
  refine ⟨fun op => ?_, fun l d' => Debugger.Reaches.of_halted hhalted, Debugger.step_of_halted hhalted,
    Debugger.resume_of_halted hhalted, fun u hu => htracks.execute hm hhalted hu⟩
  obtain ⟨d', hends, -⟩ := Debugger.perform_of_halted hhalted op
  exact ⟨d', hends⟩

/-- a breakpoint at the end of a loop, and behind the loop a command that fails: `resume` makes three steps up to the
breakpoint, the order `c` one more, and then nothing goes on -/
theorem debugger_follows_machine_past_breakpoint : ∃ d₀ d : Debugger,
    Debugger.start (.text "+[-]<") default [] 10 30 = .ok d₀ ∧ Debugger.Reaches d₀ 4 d ∧ d.breakpoints = [3] ∧
      d.failure = some (.error ⟨.tapeUnderflow, 4, 0⟩) ∧ d.resume 1 = some (0, d) ∧
      (Debugger.session default []).execute 5 (.script (.text "+[-]<")) =
        (.stopped (.error ⟨.tapeUnderflow, 4, 0⟩), (Debugger.session default []).after d.machine) := by
  obtain ⟨m, d₀, -, hstart, hall⟩ := debugger_follows_machine (.text "+[-]<") default [] 10 30 _ rfl
  have hfirst : (Debugger.start (.text "+[-]<") default [] 10 30).toOption.bind
      (fun d => ((d.toggle 3).2.resume 9).map Prod.fst) = some 3 := by decide +kernel
  have hsecond : (Debugger.start (.text "+[-]<") default [] 10 30).toOption.bind
      (fun d => ((d.toggle 3).2.resume 9).bind fun r =>
        (r.2.perform 9 (.handle ['c'])).map fun r => (r.1, r.2.breakpoints, r.2.failure)) =
      some (1, [3], some (.error ⟨.tapeUnderflow, 4, 0⟩)) := by decide +kernel
  rw [hstart] at hfirst hsecond
  obtain ⟨⟨_, d₁⟩, hresume, rfl⟩ := Option.map_eq_some_iff.1 hfirst
  simp only [Except.toOption, Option.bind_some, hresume] at hsecond
  obtain ⟨⟨n, d⟩, hhandle, heq⟩ := Option.map_eq_some_iff.1 hsecond
  simp only [Prod.mk.injEq] at heq
  obtain ⟨rfl, hbreakpoints, hfailure⟩ := heq
  have hreaches : Debugger.Reaches d₀ 4 d :=
    ((Debugger.Reaches.start.perform 9 (.toggle 3) rfl).perform 9 .resume hresume).perform 9 (.handle ['c']) hhandle
  have hhalted : d.halted = true := by simp [Debugger.halted, hfailure]
  obtain ⟨-, -, hends⟩ := hall 4 d hreaches
  obtain ⟨-, -, -, hresume, hexecute⟩ := hends hhalted
  exact ⟨d₀, d, hstart, hreaches, hbreakpoints, hfailure, hresume 0, (hexecute 5 (by decide)).2 _ hfailure⟩

end Brainfuck
