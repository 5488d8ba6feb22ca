/-
What one step does, as a relation, and what is done at the end.

- `Moves p config i w stop j w'`: a step at the index `i` goes on at `j`. The partner of a bracket is the one of
  `Bracket.Pair`, whatever the machine does to find it.
- `step_of_moves`: the machine does what the relation says, and `exists_moves`: the relation says something of every
  state whose world fits the configuration. A move keeps that (`Moves.fits`).
- `Completes config i w stop w'`: the last flush, after all commands. By `Machine.execute_pair` executions whose runs
  end alike end alike.
-/
import Brainfuck.Proofs.Effect
import Brainfuck.Proofs.Partner
import Brainfuck.Run

namespace Brainfuck

open Brainfuck.Bracket

/-! ## One step -/

section Moves

variable {σ τ : Type} [ByteSource σ] [ByteSink τ] {p : Program} {config : Config}

/-- what a step at an index does, and where it goes on -/
inductive Moves (p : Program) (config : Config) : Nat → World σ τ → Option Stop → Nat → World σ τ → Prop where
  | limit {i limit : Nat} {w : World σ τ} : config.maxSteps = some limit → limit ≤ w.steps →
      Moves p config i w (some (.error ⟨.stepLimitExceeded limit, i, w.pointer⟩)) i w
  | missing {i : Nat} {w : World σ τ} : w.Allowed config → p.commands[i]? = none →
      Moves p config i w (some .noCommand) i w
  | plain {i : Nat} {c : Command} {w w' : World σ τ} : w.Allowed config → p.commands[i]? = some c →
      Effect config i c w none w' → Moves p config i w none (i + 1) w'
  | plainStop {i : Nat} {c : Command} {s : Stop} {w w' : World σ τ} : w.Allowed config → p.commands[i]? = some c →
      Effect config i c w (some s) w' → Moves p config i w (some s) i w'
  | skip {i j : Nat} {w : World σ τ} : w.Allowed config → Pair p.commands.toList i j → w.cell = 0 →
      Moves p config i w none (j + 1) w.tick
  | enter {i j : Nat} {w : World σ τ} : w.Allowed config → Pair p.commands.toList i j → w.cell ≠ 0 →
      Moves p config i w none (i + 1) w.tick
  | leave {i j : Nat} {w : World σ τ} : w.Allowed config → Pair p.commands.toList i j → w.cell = 0 →
      Moves p config j w none (j + 1) w.tick
  | again {i j : Nat} {w : World σ τ} : w.Allowed config → Pair p.commands.toList i j → w.cell ≠ 0 →
      Moves p config j w none (i + 1) w.tick

/-- what a step does is determined in every state -/
theorem exists_moves (hp : p.WellFormed) (i : Nat) {w : World σ τ} (hw : w.Fits config) :
    ∃ stop j w', Moves p config i w stop j w' := by
  by_cases hallowed : w.Allowed config
  · cases hc : p.commands[i]? with
    | none => exact ⟨_, _, _, .missing hallowed hc⟩
    | some c =>
      have hlist : p.commands.toList[i]? = some c := by rw [Array.getElem?_toList, hc]
      by_cases hplain : c.IsPlain
      · obtain ⟨stop, w', he⟩ := exists_effect hw i hplain
        cases stop with
        | none => exact ⟨_, _, _, .plain hallowed hc he⟩
        | some s => exact ⟨_, _, _, .plainStop hallowed hc he⟩
      · obtain ⟨j, hj | hj⟩ := hp.balanced.exists_partner hlist hplain
        · by_cases h0 : w.cell = 0
          · exact ⟨_, _, _, .skip hallowed hj h0⟩
          · exact ⟨_, _, _, .enter hallowed hj h0⟩
        · by_cases h0 : w.cell = 0
          · exact ⟨_, _, _, .leave hallowed hj h0⟩
          · exact ⟨_, _, _, .again hallowed hj h0⟩
  · simp only [World.Allowed, not_forall, Nat.not_lt] at hallowed
    obtain ⟨limit, hmax, hle⟩ := hallowed
    exact ⟨_, _, _, .limit hmax hle⟩

namespace Machine

omit [ByteSource σ] [ByteSink τ] in
theorem limitReached_of_allowed {i : Nat} {w : World σ τ} (h : w.Allowed config) :
    (place p config i w).limitReached = none := by
  refine Option.filter_eq_none_iff.2 fun limit hmax => ?_
  have hlt : (place p config i w).steps < limit := h limit hmax
  simpa using hlt

omit [ByteSource σ] [ByteSink τ] in
theorem limitReached_eq_none_iff {i : Nat} {w : World σ τ} :
    (place p config i w).limitReached = none ↔ w.Allowed config := by
  constructor
  · intro h limit hmax
    have hnot : ¬ decide (limit ≤ w.steps) = true := Option.filter_eq_none_iff.1 h limit hmax
    simpa using hnot
  · exact limitReached_of_allowed

theorem step_of_allowed {i : Nat} {c : Command} {w : World σ τ} (h : w.Allowed config)
    (hc : p.commands[i]? = some c) : (place p config i w).step = (place p config i w.tick).dispatch c := by
  have hcommand : (place p config i w).program.commands[(place p config i w).ip]? = some c := hc
  simp only [step, limitReached_of_allowed h, hcommand]
  rfl

omit [ByteSource σ] [ByteSink τ] in
theorem jump_of_partners (hp : p.WellFormed) {i j : Nat} {w : World σ τ} (h : Partners p.commands.toList i j) :
    (place p config i w).jump = (none, place p config (j + 1) w) := by
  have hpartner : (place p config i w).program.partner? (place p config i w).ip = some j := hp.partner?_eq h
  simp only [jump, hpartner]
  rfl

theorem step_of_bracket {i : Nat} {c : Command} {w : World σ τ} (hw : w.Fits config) (hallowed : w.Allowed config)
    (hc : p.commands.toList[i]? = some c) (hbracket : c = .loopStart ∨ c = .loopEnd) :
    (place p config i w).step =
      if (c = .loopStart ↔ w.cell = 0) then (place p config i w.tick).jump else (place p config i w.tick).advance := by
  have hlt : (place p config i w.tick).pointer < (place p config i w.tick).tape.length := hw.pointer_lt
  have hcell : (place p config i w.tick).cell = w.cell := rfl
  rw [step_of_allowed hallowed (by rw [← Array.getElem?_toList, hc])]
  rcases hbracket with rfl | rfl
  · simp [dispatch, withCell_of_lt hlt, hcell]
  · by_cases h0 : w.cell = 0 <;> simp [dispatch, withCell_of_lt hlt, hcell, h0]

/-- the machine does what the relation says -/
theorem step_of_moves (hp : p.WellFormed) {i j : Nat} {w w' : World σ τ} {stop : Option Stop} (hw : w.Fits config)
    (h : Moves p config i w stop j w') : (place p config i w).step = (stop, place p config j w') := by
  cases h with
  | limit hmax hle =>
    have hreached : (place p config i w).limitReached = some _ :=
      Option.filter_eq_some_iff.2 ⟨hmax, decide_eq_true hle⟩
    simp only [step, hreached]
    rfl
  | missing hallowed hc =>
    have hcommand : (place p config i w).program.commands[(place p config i w).ip]? = none := hc
    simp only [step, limitReached_of_allowed hallowed, hcommand]
  | plain hallowed hc he => rw [step_of_allowed hallowed hc]; exact dispatch_of_effect hw he
  | plainStop hallowed hc he => rw [step_of_allowed hallowed hc]; exact dispatch_of_effect hw he
  | skip hallowed hpair h0 =>
    rw [step_of_bracket hw hallowed hpair.start (.inl rfl), if_pos (by simp [h0]), jump_of_partners hp (.inl hpair)]
  | enter hallowed hpair h0 =>
    rw [step_of_bracket hw hallowed hpair.start (.inl rfl), if_neg (by simp [h0])]
    rfl
  | leave hallowed hpair h0 =>
    rw [step_of_bracket hw hallowed hpair.stop (.inr rfl), if_neg (by simp [h0])]
    rfl
  | again hallowed hpair h0 =>
    rw [step_of_bracket hw hallowed hpair.stop (.inr rfl), if_pos (by simp [h0]), jump_of_partners hp (.inr hpair)]

end Machine

theorem Moves.fits {i j : Nat} {stop : Option Stop} {w w' : World σ τ} (hw : w.Fits config)
    (h : Moves p config i w stop j w') : w'.Fits config := by
  cases h with
  | limit | missing => exact hw
  | plain _ _ he | plainStop _ _ he => exact he.fits hw
  | _ => exact ⟨hw.pointer_lt, hw.length_le, hw.growable, hw.growthChunk⟩

end Moves

/-! ## The end of a run -/

section Completes

variable {σ τ : Type} [ByteSink τ] {config : Config} {i : Nat} {w w' : World σ τ} {stop : Option Stop}

/-- what is done after the last command -/
inductive Completes (config : Config) (i : Nat) : World σ τ → Option Stop → World σ τ → Prop where
  | nothing {w : World σ τ} : config.flushOutput = true ∨ w.outputBytes = 0 → Completes config i w none w
  | flush {w : World σ τ} {sink : τ} : config.flushOutput = false → w.outputBytes ≠ 0 →
      ByteSink.flush w.sink = (none, sink) → Completes config i w none { w with sink := sink }
  | fault {w : World σ τ} {f : Fault} {sink : τ} : config.flushOutput = false → w.outputBytes ≠ 0 →
      ByteSink.flush w.sink = (some f, sink) →
      Completes config i w (some (streamStop "output sink" f i w.pointer)) { w with sink := sink }

theorem exists_completes (config : Config) (i : Nat) (w : World σ τ) : ∃ stop w', Completes config i w stop w' := by
  by_cases h0 : w.outputBytes = 0
  · exact ⟨_, _, .nothing (.inr h0)⟩
  · cases hflush : config.flushOutput
    · rcases hf : ByteSink.flush w.sink with ⟨_ | f, sink⟩
      · exact ⟨_, _, .flush hflush h0 hf⟩
      · exact ⟨_, _, .fault hflush h0 hf⟩
    · exact ⟨_, _, .nothing (.inl hflush)⟩

theorem Machine.complete_of_completes {p : Program} (h : Completes config i w stop w') :
    (place p config i w).complete = (stop, place p config i w') := by
  have hsink : (place p config i w).sink = w.sink := rfl
  cases h with
  | nothing hno =>
    have hskip : (config.flushOutput || decide (w.outputBytes = 0)) = true := by simpa using hno
    exact if_pos hskip
  | flush hflush h0 hf =>
    have hskip : ¬ (config.flushOutput || decide (w.outputBytes = 0)) = true := by simp [hflush, h0]
    refine (if_neg hskip).trans ?_
    rw [hsink, hf]
    rfl
  | fault hflush h0 hf =>
    have hskip : ¬ (config.flushOutput || decide (w.outputBytes = 0)) = true := by simp [hflush, h0]
    refine (if_neg hskip).trans ?_
    rw [hsink, hf]
    exact failStream_eq _ _ _

theorem Completes.congr {d : Config} (hd : d.flushOutput = config.flushOutput) (h : Completes config i w stop w') :
    Completes d i w stop w' := by
  cases h with
  | nothing hno => exact .nothing (hno.imp_left hd.trans)
  | flush hflush h0 hf => exact .flush (hd.trans hflush) h0 hf
  | fault hflush h0 hf => exact .fault (hd.trans hflush) h0 hf

theorem Completes.steps_eq (h : Completes config i w stop w') : w'.steps = w.steps := by
  cases h <;> rfl

/-- an execution that is finished stops only for the last flush -/
theorem Machine.execute_of_completes [ByteSource σ] {p : Program} {m : Machine σ τ} {u : Nat}
    (hrun : m.run u = (.finished, place p config i w)) (h : Completes config i w stop w') :
    m.execute u = (stop.elim .finished .stopped, place p config i w') := by
  have hc := complete_of_completes (p := p) h
  cases stop with
  | none | some => simp only [execute, hrun, hc, Option.elim]

/-- two executions whose runs end alike, in one world, end alike -/
theorem Machine.execute_pair [ByteSource σ] {p q : Program} {c d : Config} (hd : d.flushOutput = c.flushOutput)
    {m m' : Machine σ τ} {u v : Nat} {e : Ending} (h : m.run u = (e, place p c i w))
    (h' : m'.run v = (e, place q d i w)) :
    ∃ e' w', (e' = .unfinished ↔ e = .unfinished) ∧ w'.steps = w.steps ∧
      m.execute u = (e', place p c i w') ∧ m'.execute v = (e', place q d i w') := by
  cases e with
  | finished =>
    obtain ⟨stop, w', hcomplete⟩ := exists_completes c i w
    have hx := execute_of_completes h hcomplete
    have hx' := execute_of_completes h' (hcomplete.congr hd)
    exact ⟨_, w', by cases stop <;> simp, hcomplete.steps_eq, hx, hx'⟩
  | stopped s =>
    refine ⟨.stopped s, w, by simp, rfl, ?_, ?_⟩
    · simp only [execute, h]
    · simp only [execute, h']
  | unfinished =>
    refine ⟨.unfinished, w, Iff.rfl, rfl, ?_, ?_⟩
    · simp only [execute, h]
    · simp only [execute, h']

end Completes

end Brainfuck
