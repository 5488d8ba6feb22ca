/-
A step that fails leaves the machine as it was.

- `Effect.kept`, `Moves.kept`: the index, the pointer, the tape and the count of bytes are those from before the step.
  A failing command is counted; reaching the step limit, or the end of the program, is not (`Stop.counted`).
- `Effect.locates`: an error names the index and the pointer of the machine.
- `Cause.Lasting`: the causes that no stream has a part in. What fails for one of them fails again (`Effect.retry`,
  `Moves.retry`), until the step limit is reached. By induction so does every further step (`Machine.after_failure`).
- `failed_step_changes_nothing`: all of it, for every state that a prepared machine can be in.
-/
import Brainfuck.Device
import Brainfuck.Proofs.Trace

namespace Brainfuck

/-! ## Reasons to stop -/

/-- a command that stops for this reason is counted -/
def Stop.counted : Stop → Bool
  | .error e => e.kind ≠ .stepLimitExceeded
  | .noCommand => false
  | .fault _ | .tape _ => true

/-- the causes that are still there at the next try: they lie in the machine and not in a stream -/
def Cause.Lasting : Cause → Prop
  | .tapeUnderflow | .tapeOverflow _ | .cellOverflow _ | .stepLimitExceeded _ => True
  | .ioFailure _ | .inputExhausted => False

variable {σ τ : Type} {p : Program} {config : Config} {i j : Nat} {c : Command} {s : Stop} {e : ExecutionError}
  {w w' : World σ τ}

/-- the world with another count of commands -/
def World.counting (w : World σ τ) (n : Nat) : World σ τ := { w with steps := n }

/-! ## One command -/

theorem counted_streamStop (stream : String) (f : Fault) (i pointer : Nat) :
    (streamStop stream f i pointer).counted = true := by
  unfold streamStop
  split <;> rfl

theorem locates_streamStop {stream : String} {f : Fault} {pointer : Nat}
    (h : streamStop stream f i pointer = .error e) : e.ip = i ∧ e.pointer = pointer ∧ ¬ e.cause.Lasting := by
  unfold streamStop at h
  split at h
  · cases h
    exact ⟨rfl, rfl, id⟩
  · cases h

variable [ByteSource σ] [ByteSink τ]

namespace Effect

theorem kept (h : Effect config i c w (some s) w') :
    w'.tape = w.tape ∧ w'.pointer = w.pointer ∧ w'.outputBytes = w.outputBytes := by
  cases h <;> exact ⟨rfl, rfl, rfl⟩

theorem counted (h : Effect config i c w (some s) w') : s.counted = true := by
  cases h with
  | rightEnd | leftEnd | incrementEnd | decrementEnd | inputEnd => rfl
  | writeFault | flushFault | readFault => exact counted_streamStop _ _ _ _

/-- an error names the index and the pointer -/
theorem locates (h : Effect config i c w (some (.error e)) w') : e.ip = i ∧ e.pointer = w.pointer := by
  generalize hs : some (Stop.error e) = stop at h
  cases h with
  | leftEnd h0 =>
    cases hs
    exact ⟨rfl, h0.symm⟩
  | rightEnd | incrementEnd | decrementEnd | inputEnd =>
    cases hs
    exact ⟨rfl, rfl⟩
  | writeFault | flushFault | readFault =>
    obtain ⟨hip, hpointer, -⟩ := locates_streamStop (Option.some.inj hs).symm
    exact ⟨hip, hpointer⟩
  | _ => cases hs

/-- what fails for a lasting cause changes nothing but the count, and fails again at every count -/
theorem retry (hlasting : e.cause.Lasting) (h : Effect config i c w (some (.error e)) w') :
    w' = w.tick ∧ ∀ n, Effect config i c (w.counting n) (some (.error e)) (w.counting (n + 1)) := by
  generalize hs : some (Stop.error e) = stop at h
  cases h with
  | rightEnd hend hfixed =>
    cases hs
    exact ⟨rfl, fun n => .rightEnd (w := w.counting n) hend hfixed⟩
  | leftEnd h0 =>
    cases hs
    exact ⟨rfl, fun n => .leftEnd (w := w.counting n) h0⟩
  | incrementEnd hfull hwrap =>
    cases hs
    exact ⟨rfl, fun n => .incrementEnd (w := w.counting n) hfull hwrap⟩
  | decrementEnd hzero hwrap =>
    cases hs
    exact ⟨rfl, fun n => .decrementEnd (w := w.counting n) hzero hwrap⟩
  | inputEnd =>
    cases hs
    exact absurd hlasting id
  | writeFault | flushFault | readFault =>
    exact absurd hlasting (locates_streamStop (Option.some.inj hs).symm).2.2
  | _ => cases hs

end Effect

/-! ## One step -/

namespace Moves

theorem kept (h : Moves p config i w (some s) j w') :
    j = i ∧ w'.tape = w.tape ∧ w'.pointer = w.pointer ∧ w'.outputBytes = w.outputBytes ∧
      w'.steps = if s.counted then w.steps + 1 else w.steps := by
  cases h with
  | limit | missing => exact ⟨rfl, rfl, rfl, rfl, rfl⟩
  | plainStop _ _ he =>
    obtain ⟨htape, hpointer, hbytes⟩ := he.kept
    refine ⟨rfl, htape, hpointer, hbytes, ?_⟩
    rw [he.counted, he.steps_eq, if_pos rfl]

theorem locates (h : Moves p config i w (some (.error e)) j w') : e.ip = i ∧ e.pointer = w.pointer := by
  cases h with
  | limit => exact ⟨rfl, rfl⟩
  | plainStop _ _ he => exact he.locates

theorem length_le_of_noCommand (h : Moves p config i w (some .noCommand) j w') : p.length ≤ i := by
  cases h with
  | missing _ hc => exact Array.getElem?_eq_none_iff.1 hc
  | plainStop _ _ he => exact absurd he.counted (by decide)

/-- a step that fails for a lasting cause changes nothing but the count, and fails again while the limit allows it -/
theorem retry (hlasting : e.cause.Lasting) (h : Moves p config i w (some (.error e)) j w') :
    w' = w.counting w'.steps ∧ w.steps ≤ w'.steps ∧
      ∀ n, w.steps ≤ n → (w.counting n).Allowed config →
        Moves p config i (w.counting n) (some (.error e)) i (w.counting (n + 1)) := by
  cases h with
  | limit hmax hle =>
    refine ⟨rfl, Nat.le_refl _, fun n hn hallowed => ?_⟩
    exact absurd (Nat.le_trans hle hn) (Nat.not_le_of_lt (hallowed _ hmax))
  | plainStop _ hc he =>
    obtain ⟨rfl, hagain⟩ := he.retry hlasting
    exact ⟨rfl, Nat.le_succ _, fun n _ hallowed => .plainStop hallowed hc (hagain n)⟩

end Moves

/-! ## Further steps -/

namespace Machine

/-- the machine is where it was, and its tape and its count of bytes are what they were -/
structure Kept (m m' : Machine σ τ) : Prop where
  ip : m'.ip = m.ip
  pointer : m'.pointer = m.pointer
  tape : m'.tape = m.tape
  outputBytes : m'.outputBytes = m.outputBytes

/-- the machine `r` differs from `m` in its count only, and its next step fails with the error `e`, or because the
limit is reached -/
structure FailsAgain (e : ExecutionError) (m r : Machine σ τ) : Prop where
  state : r = { m with steps := r.steps }
  below : (∀ limit, m.config.maxSteps = some limit → r.steps < limit) →
    r.step = (some (.error e), { r with steps := r.steps + 1 })
  atLimit : ∀ limit, m.config.maxSteps = some limit → limit ≤ r.steps →
    r.step = (some (.error ⟨.stepLimitExceeded limit, e.ip, e.pointer⟩), r)

/-- after a failure for a lasting cause only the count changes -/
theorem after_failure (hp : p.WellFormed) (hw : w.Fits config) (hlasting : e.cause.Lasting)
    (h : Moves p config i w (some (.error e)) j w') (n : Nat) :
    ∃ k, w.steps ≤ k ∧ (place p config j w').after n = place p config i (w.counting k) := by
  obtain ⟨hw', hle, hagain⟩ := h.retry hlasting
  induction n with
  | zero =>
    refine ⟨w'.steps, hle, ?_⟩
    rw [h.kept.1, ← hw']
    rfl
  | succ n ih =>
    obtain ⟨k, hk, hn⟩ := ih
    have hfits : (w.counting k).Fits config := ⟨hw.pointer_lt, hw.length_le, hw.growable, hw.growthChunk⟩
    rw [after, hn]
    by_cases hallowed : (w.counting k).Allowed config
    · rw [step_of_moves hp hfits (hagain k hk hallowed)]
      exact ⟨k + 1, Nat.le_succ_of_le hk, rfl⟩
    · simp only [World.Allowed, not_forall, Nat.not_lt] at hallowed
      obtain ⟨limit, hmax, hreached⟩ := hallowed
      rw [step_of_moves hp hfits (.limit hmax hreached)]
      exact ⟨k, hk, rfl⟩

theorem failsAgain (hp : p.WellFormed) (hw : w.Fits config) (hlasting : e.cause.Lasting)
    (h : Moves p config i w (some (.error e)) j w') (n : Nat) :
    FailsAgain e (place p config j w') ((place p config j w').after n) := by
  obtain ⟨hw', -, hagain⟩ := h.retry hlasting
  obtain ⟨hip, hpointer⟩ := h.locates
  obtain ⟨k, hk, hn⟩ := after_failure hp hw hlasting h n
  have hfits : (w.counting k).Fits config := ⟨hw.pointer_lt, hw.length_le, hw.growable, hw.growthChunk⟩
  rw [hn, h.kept.1]
  refine ⟨?_, fun hallowed => ?_, fun limit hmax hreached => ?_⟩
  · rw [hw']
    rfl
  · rw [step_of_moves hp hfits (hagain k hk hallowed)]
    rfl
  · rw [step_of_moves hp hfits (.limit hmax hreached), hip, hpointer]
    rfl

end Machine

/-- **A failing step leaves the machine as it was.** In every state of a prepared machine, a step that stops leaves the
index, the pointer, the tape and the count of bytes; it is counted, unless the step limit was reached or the program was
finished. An error names the index and the pointer. After an error that lies in the machine every further step fails
with the same error, until the step limit is reached; from there on every step reports that, and changes nothing. -/
theorem failed_step_changes_nothing (session : Session σ τ) (job : Job) (hjob : job.Parsed) (m : Machine σ τ)
    (hm : session.prepare job = .ok m) (k : Nat) (stop : Stop) (m' : Machine σ τ)
    (hstep : (m.after k).step = (some stop, m')) :
    (m.after k).Kept m' ∧
      m'.steps = (if stop.counted then (m.after k).steps + 1 else (m.after k).steps) ∧
      (stop = .noCommand → (m.after k).finished = true) ∧
      (∀ e, stop = .error e → e.ip = (m.after k).ip ∧ e.pointer = (m.after k).pointer) ∧
      ∀ e, stop = .error e → e.cause.Lasting → ∀ n, Machine.FailsAgain e m' (m'.after n) := by
  obtain ⟨p, hp, rfl⟩ := Session.exists_place_of_prepare hjob hm
  obtain ⟨i, w, hk, hw, -⟩ := Machine.exists_after hp (P := fun _ _ => True)
    (World.fits_initial session.config session.feed.source session.sink) trivial (fun _ _ _ _ _ _ h => h) k
  rw [hk] at hstep ⊢
  obtain ⟨stop', j, w', hmove⟩ := exists_moves hp i hw
  rw [Machine.step_of_moves hp hw hmove, Prod.mk.injEq] at hstep
  obtain ⟨rfl, rfl⟩ := hstep
  obtain ⟨hj, htape, hpointer, hbytes, hsteps⟩ := hmove.kept
  refine ⟨⟨hj, hpointer, htape, hbytes⟩, hsteps, ?_, ?_, ?_⟩
  · rintro rfl
    exact decide_eq_true hmove.length_le_of_noCommand
  · rintro e rfl
    exact hmove.locates
  · rintro e rfl hlasting n
    exact Machine.failsAgain hp hw hlasting hmove n

/-- a pointer that cannot go left of the first cell, tried three times under a limit of two commands -/
theorem failed_step_changes_nothing_left_of_zero : ∃ (s : Session Source Sink) (m m' : Machine Source Sink),
    s.config.maxSteps = some 2 ∧ s.prepare (.script (.text "<")) = .ok m ∧
    m.step = (some (.error ⟨.tapeUnderflow, 0, 0⟩), m') ∧ m.Kept m' ∧ m'.steps = 1 ∧
    (m'.after 0).step.1 = some (.error ⟨.tapeUnderflow, 0, 0⟩) ∧
    (m'.after 1).step = (some (.error ⟨.stepLimitExceeded 2, 0, 0⟩), m'.after 1) := by
  let s : Session Source Sink := .start { maxSteps := some 2 } (.replayed (.buffer [])) (.buffer #[])
  obtain ⟨hkept, hsteps, -, -, hagain⟩ :=
    failed_step_changes_nothing s (.script (.text "<")) trivial _ rfl 0 _ _ rfl
  refine ⟨s, _, _, rfl, rfl, rfl, hkept, hsteps, ?_, ?_⟩
  · exact congrArg Prod.fst ((hagain _ rfl trivial 0).below (by rintro _ ⟨⟩; decide))
  · exact (hagain _ rfl trivial 1).atLimit 2 rfl (by decide)

end Brainfuck
