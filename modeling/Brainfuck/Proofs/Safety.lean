/-
A machine never leaves its program or its tape.

- `Sound m₀ m`: the index is in the program of `m₀` or just behind it, the pointer is on the tape, the tape has its
  configured length at least, every cell holds a byte, and no more commands are counted than the limit allows.
- `Permitted m stop`: the reasons for which a machine may stop, and what each says of the machine. Neither a missing
  command nor a refused cell is among them.
- `machine_sound`: both hold of every machine that a session prepares, after any number of steps, also failed ones.

The indices that a jump takes are in the program because `Moves` goes from one bracket of a pair to the other
(`Moves.le_length`). Nothing is assumed of the streams.
-/
import Brainfuck.Device
import Brainfuck.Proofs.Trace

namespace Brainfuck

variable {σ τ : Type}

namespace Machine

/-- what holds of every state `m` of a run that starts at `m₀` -/
structure Sound (m₀ m : Machine σ τ) : Prop where
  program : m.program = m₀.program
  config : m.config = m₀.config
  ip_le : m.ip ≤ m.program.length
  pointer_lt : m.pointer < m.tape.length
  length_le : m.config.tapeLength ≤ m.tape.length
  cells : ∀ i < m.tape.length, ∃ b : UInt8, m.tape.get? i = .ok b ∧ b.toNat ≤ 255
  steps_le : ∀ limit, m.config.maxSteps = some limit → m.steps ≤ limit

variable [ByteSource σ] [ByteSink τ]

/-- a stream fails in the next step -/
inductive Raised (m : Machine σ τ) (f : Fault) : Prop where
  | write : (ByteSink.write m.cell m.sink).1 = some f → Raised m f
  | flush : m.config.flushOutput = true → (ByteSink.flush (ByteSink.write m.cell m.sink).2).1 = some f → Raised m f
  | read : (ByteSource.next m.source).1 = .failed f → Raised m f

/-- the reasons for which the next step may stop -/
inductive Permitted (m : Machine σ τ) : Stop → Prop where
  | stepLimitExceeded {limit : Nat} : m.config.maxSteps = some limit → m.steps = limit →
      Permitted m (.error ⟨.stepLimitExceeded limit, m.ip, m.pointer⟩)
  | tapeUnderflow : m.pointer = 0 → Permitted m (.error ⟨.tapeUnderflow, m.ip, m.pointer⟩)
  | tapeOverflow : m.config.allowGrowth = false → m.pointer + 1 = m.tape.length →
      Permitted m (.error ⟨.tapeOverflow m.tape.length, m.ip, m.pointer⟩)
  | cellOverflow {v : Int} : m.config.wrappingCells = false → v = -1 ∨ v = 256 →
      Permitted m (.error ⟨.cellOverflow v, m.ip, m.pointer⟩)
  | inputExhausted : m.config.eofPolicy = .error → (ByteSource.next m.source).1 = .ended →
      Permitted m (.error ⟨.inputExhausted, m.ip, m.pointer⟩)
  | ioFailure {f : Fault} (stream : String) : Raised m f → f.kind.isInputOutput = true →
      Permitted m (.error ⟨.ioFailure s!"{stream}: {f.message}", m.ip, m.pointer⟩)
  | fault {f : Fault} : Raised m f → f.kind.isInputOutput = false → Permitted m (.fault f)

namespace Permitted

variable {m : Machine σ τ} {stop : Stop}

theorem streamStop {f : Fault} (stream : String) (h : Raised m f) :
    Permitted m (streamStop stream f m.ip m.pointer) := by
  unfold Brainfuck.streamStop
  split
  · next hio => exact .ioFailure stream h hio
  · next hio => exact .fault h (Bool.eq_false_of_not_eq_true hio)

/-- the program is never asked for a command that it does not have, nor the tape for a cell -/
theorem no_access_error (h : Permitted m stop) : stop ≠ .noCommand ∧ ∀ e, stop ≠ .tape e := by
  cases h <;> exact ⟨by simp, by simp⟩

end Permitted

end Machine

/-! ## Steps that stop -/

section Steps

variable [ByteSource σ] [ByteSink τ] {p : Program} {config : Config} {i : Nat} {s : Stop}

theorem Effect.permitted {c : Command} {w w' : World σ τ} (h : Effect config i c w (some s) w') :
    (Machine.place p config i w).Permitted s := by
  cases h with
  | rightEnd hend hg => exact .tapeOverflow hg hend
  | leftEnd h0 =>
    have : (Machine.place p config i w).Permitted (.error ⟨.tapeUnderflow, i, w.pointer⟩) := .tapeUnderflow h0
    rwa [h0] at this
  | incrementEnd _ hwrap => exact .cellOverflow hwrap (.inr rfl)
  | decrementEnd _ hwrap => exact .cellOverflow hwrap (.inl rfl)
  | writeFault hwrite => exact .streamStop "output sink" (.write (congrArg Prod.fst hwrite))
  | @flushFault _ f sink flushed hwrite hflush hf =>
    have hraised : (Machine.place p config i w).Raised f := by
      refine .flush hflush ?_
      change (ByteSink.flush (ByteSink.write w.cell w.sink).2).1 = some f
      rw [hwrite, hf]
    exact .streamStop "output sink" hraised
  | inputEnd hread hpol => exact .inputExhausted hpol (congrArg Prod.fst hread)
  | readFault hread => exact .streamStop "input source" (.read (congrArg Prod.fst hread))

theorem Moves.permitted {j : Nat} {w w' : World σ τ} (h : Moves p config i w (some s) j w') (hi : i < p.length)
    (hsteps : ∀ limit, config.maxSteps = some limit → w.steps ≤ limit) : (Machine.place p config i w).Permitted s := by
  cases h with
  | limit hmax hle => exact .stepLimitExceeded hmax (Nat.le_antisymm (hsteps _ hmax) hle)
  | missing _ hc => exact absurd hi (Nat.not_lt.2 (Array.getElem?_eq_none_iff.1 hc))
  | plainStop _ _ he => exact he.permitted

end Steps

/-! ## Every state -/

theorem Machine.sound_place {p : Program} {config : Config} {i i₀ : Nat} {w w₀ : World σ τ} (hw : w.Fits config)
    (hi : i ≤ p.length) (hsteps : ∀ limit, config.maxSteps = some limit → w.steps ≤ limit) :
    (place p config i₀ w₀).Sound (place p config i w) where
  program := rfl
  config := rfl
  ip_le := hi
  pointer_lt := hw.pointer_lt
  length_le := hw.length_le
  cells := fun k hk => ⟨w.tape.read k, Tape.get?_of_lt hk, Nat.le_of_lt_succ (w.tape.read k).toNat_lt⟩
  steps_le := hsteps

/-- **A machine never leaves its program or its tape.** After any number of steps of a prepared machine, failed ones
counted, the machine is sound, and while it is unfinished a step stops for a permitted reason only: it neither misses a
command nor has the tape refuse a cell. -/
theorem machine_sound [ByteSource σ] [ByteSink τ] (s : Session σ τ) (job : Job) (hjob : job.Parsed) (m : Machine σ τ)
    (hm : s.prepare job = .ok m) (k : Nat) :
    m.config = s.config ∧ m.Sound (m.after k) ∧
      ((m.after k).finished = false → ∀ stop, (m.after k).step.1 = some stop →
        (m.after k).Permitted stop ∧ stop ≠ .noCommand ∧ ∀ e, stop ≠ .tape e) := by
  obtain ⟨p, hp, rfl⟩ := Session.exists_place_of_prepare hjob hm
  -- the invariant: the index is in the program, and no more steps are counted than the limit allows
  obtain ⟨i, w, hk, hw, hi, hsteps⟩ := Machine.exists_after hp
    (P := fun i w => i ≤ p.length ∧ ∀ limit, s.config.maxSteps = some limit → w.steps ≤ limit)
    (World.fits_initial s.config s.feed.source s.sink) ⟨Nat.zero_le _, fun _ _ => Nat.zero_le _⟩
    (fun _ _ _ _ _ hmove hinv => ⟨hmove.le_length hinv.1, fun _ hmax => hmove.steps_le hmax (hinv.2 _ hmax)⟩) k
  rw [hk]
  refine ⟨rfl, Machine.sound_place hw hi hsteps, fun hunfinished stop hstop => ?_⟩
  have hlt : i < p.length := by simpa [Machine.finished_place] using hunfinished
  obtain ⟨stop', j, w', hmove⟩ := exists_moves hp i hw
  have hstep := Machine.step_of_moves hp hw hmove
  rw [hstep] at hstop
  subst hstop
  have hpermitted : (Machine.place p s.config i w).Permitted stop := hmove.permitted hlt hsteps
  exact ⟨hpermitted, hpermitted.no_access_error⟩

/-- the fourth command moves left of the first cell -/
theorem machine_sound_left_of_zero : ∃ m : Machine Source Sink,
    (Session.start default (.replayed (.buffer [3])) (.buffer #[])).prepare (.script (.text ",[-<]")) = .ok m ∧
    m.Sound (m.after 3) ∧ (m.after 3).step.1 = some (.error ⟨.tapeUnderflow, 3, 0⟩) ∧
    (m.after 3).Permitted (.error ⟨.tapeUnderflow, 3, 0⟩) := by
  obtain ⟨-, hsound, hstop⟩ := machine_sound (.start default (.replayed (.buffer [3])) (.buffer #[]) : Session Source Sink)
    (.script (.text ",[-<]")) trivial _ rfl 3
  exact ⟨_, rfl, hsound, rfl, (hstop rfl _ rfl).1⟩

end Brainfuck
