/-
Where the pointer starts does not matter.

Take the machine of a session and the one that starts `d` cells further right, on a tape that grows. The second tape is
the first one behind `d` cells of zero (`Tape.Behind`), and no command looks at an index as such: `World.Behind` and
`Machine.Behind` say what stays equal, and `Stop.onward` moves the pointer that an error names.

- `Effect.behind`, `Moves.behind`: the second machine does the same, unless the first one underflows.
- `Machine.after_behind`, `Machine.execute_behind`: so it is after every number of steps up to the first underflow, and
  in an execution that never underflows.
- `start_does_not_matter`: both, for all prepared machines, and what the executions come to.
-/
import Brainfuck.Device
import Brainfuck.Proofs.Simulation
import Brainfuck.Proofs.Strictness

namespace Brainfuck

variable {σ τ : Type} {p : Program} {c : Config} {d i j : Nat} {w w' v : World σ τ} {stop : Option Stop}

/-! ## Tapes -/

namespace Tape

/-- the second tape is the first one behind `d` cells of zero; both read as zero past their ends -/
structure Behind (d : Nat) (t t' : Tape) : Prop where
  front : ∀ i < d, t'.read i = 0
  cells : ∀ i, t'.read (i + d) = t.read i

namespace Behind

variable {t t' : Tape}

theorem zeros (d n : Nat) (g : Bool) (chunk : Int) : Behind d (.zeros n g chunk) (.zeros n g chunk) where
  front := by simp
  cells := by simp

theorem grow (h : Behind d t t') (m : Int) : Behind d (t.grow m) t' where
  front := h.front
  cells := by simpa [read_grow] using h.cells

theorem grow_right (h : Behind d t t') (m : Int) : Behind d t (t'.grow m) where
  front := by simpa [read_grow] using h.front
  cells := by simpa [read_grow] using h.cells

theorem write (h : Behind d t t') (hi : i < t.length) (hi' : i + d < t'.length) (b : UInt8) :
    Behind d (t.write i b) (t'.write (i + d) b) := by
  constructor
  · intro k hk
    rw [read_write_of_ne b (by omega), h.front k hk]
  · intro k
    by_cases hik : i = k
    · subst hik
      rw [read_write_self b hi, read_write_self b hi']
    · rw [read_write_of_ne b hik, read_write_of_ne b (by omega), h.cells k]

end Behind

end Tape

/-! ## Worlds and errors -/

/-- the error at a cell `d` further right -/
def ExecutionError.onward (d : Nat) (e : ExecutionError) : ExecutionError := { e with pointer := e.pointer + d }

def Stop.onward (d : Nat) : Stop → Stop
  | .error e => .error (e.onward d)
  | s => s

theorem onward_streamStop (d : Nat) (stream : String) (f : Fault) (i pointer : Nat) :
    (streamStop stream f i pointer).onward d = streamStop stream f i (pointer + d) := by
  unfold streamStop
  split <;> rfl

/-- the second world is the first one, `d` cells further right -/
structure World.Behind (d : Nat) (w v : World σ τ) : Prop where
  tape : w.tape.Behind d v.tape
  pointer : v.pointer = w.pointer + d
  source : v.source = w.source
  sink : v.sink = w.sink
  outputBytes : v.outputBytes = w.outputBytes
  steps : v.steps = w.steps

namespace World.Behind

theorem cell (h : Behind d w v) : v.cell = w.cell := by
  rw [World.cell, h.pointer, h.tape.cells, World.cell]

theorem tick (h : Behind d w v) : Behind d w.tick v.tick :=
  ⟨h.tape, h.pointer, h.source, h.sink, h.outputBytes, congrArg (· + 1) h.steps⟩

theorem allowed {c' : Config} (h : Behind d w v) (hmax : c'.maxSteps = c.maxSteps) (hw : w.Allowed c) :
    v.Allowed c' := by
  intro limit hlimit
  rw [h.steps]
  exact hw limit (hmax.symm.trans hlimit)

theorem put (h : Behind d w v) (hw : w.pointer < w.tape.length) (hv : v.pointer < v.tape.length) (b : UInt8) :
    Behind d (w.put b) (v.put b) := by
  refine ⟨?_, h.pointer, h.source, h.sink, h.outputBytes, h.steps⟩
  rw [h.pointer] at hv
  rw [World.tape_put, World.tape_put, h.pointer]
  exact h.tape.write hw hv b

end World.Behind

/-! ## One step -/

section Steps

variable [ByteSource σ] [ByteSink τ] {c' : Config}

/-- a move to the right, be there a cell already or not -/
theorem exists_right_behind (hgrowth : c'.allowGrowth = true) (hv : v.Fits c') (hR : w.Behind d v) {t : Tape}
    (ht : t.Behind d v.tape) : ∃ v', Effect c' i .right v none v' ∧
      World.Behind d { w.tick with pointer := w.pointer + 1, tape := t } v' := by
  have hpointer : v.pointer + 1 = w.pointer + 1 + d := by
    rw [hR.pointer]
    omega
  have hsteps : v.steps + 1 = w.steps + 1 := congrArg (· + 1) hR.steps
  rcases Nat.lt_or_eq_of_le (Nat.succ_le_of_lt hv.pointer_lt) with hlt | hend
  · exact ⟨_, .right hlt, ht, hpointer, hR.source, hR.sink, hR.outputBytes, hsteps⟩
  · exact ⟨_, .rightGrow hend hgrowth, ht.grow_right _, hpointer, hR.source, hR.sink, hR.outputBytes, hsteps⟩

/-- what the sink gets is the same -/
theorem Effect.behind_output (hd : c.Alike c') (hR : w.Behind d v) (h : Effect c i .output w stop w') :
    ∃ v', Effect c' i .output v (stop.map (Stop.onward d)) v' ∧ w'.Behind d v' := by
  have hsteps : v.steps + 1 = w.steps + 1 := congrArg (· + 1) hR.steps
  have hbytes : v.outputBytes + 1 = w.outputBytes + 1 := congrArg (· + 1) hR.outputBytes
  cases h with
  | output hwrite hno =>
    rw [← hR.cell, ← hR.sink] at hwrite
    exact ⟨_, .output hwrite (hd.flushOutput.trans hno), hR.tape, hR.pointer, hR.source, rfl, hbytes, hsteps⟩
  | outputFlush hwrite hyes hf =>
    rw [← hR.cell, ← hR.sink] at hwrite
    exact ⟨_, .outputFlush hwrite (hd.flushOutput.trans hyes) hf, hR.tape, hR.pointer, hR.source, rfl, hbytes, hsteps⟩
  | writeFault hwrite =>
    rw [← hR.cell, ← hR.sink] at hwrite
    rw [Option.map_some, onward_streamStop, ← hR.pointer]
    exact ⟨_, .writeFault hwrite, hR.tape, hR.pointer, hR.source, rfl, hR.outputBytes, hsteps⟩
  | flushFault hwrite hyes hf =>
    rw [← hR.cell, ← hR.sink] at hwrite
    rw [Option.map_some, onward_streamStop, ← hR.pointer]
    exact ⟨_, .flushFault hwrite (hd.flushOutput.trans hyes) hf, hR.tape, hR.pointer, hR.source, rfl, hR.outputBytes,
      hsteps⟩

/-- what comes from the source is the same -/
theorem Effect.behind_input (hd : c.Alike c') (hw : w.Fits c) (hv : v.Fits c') (hR : w.Behind d v)
    (h : Effect c i .input w stop w') :
    ∃ v', Effect c' i .input v (stop.map (Stop.onward d)) v' ∧ w'.Behind d v' := by
  have hsteps : v.steps + 1 = w.steps + 1 := congrArg (· + 1) hR.steps
  have hread : ∀ source : σ, World.Behind d { w.tick with source := source } { v.tick with source := source } :=
    fun source => ⟨hR.tape, hR.pointer, rfl, hR.sink, hR.outputBytes, hsteps⟩
  have hput : ∀ (source : σ) (b : UInt8),
      World.Behind d ({ w.tick with source := source }.put b) ({ v.tick with source := source }.put b) :=
    fun source => (hread source).put hw.pointer_lt hv.pointer_lt
  cases h with
  | input hnext => exact ⟨_, .input (hR.source ▸ hnext), hput _ _⟩
  | inputZero hnext hpol => exact ⟨_, .inputZero (hR.source ▸ hnext) (hd.eofPolicy.trans hpol), hput _ _⟩
  | inputUnchanged hnext hpol => exact ⟨_, .inputUnchanged (hR.source ▸ hnext) (hd.eofPolicy.trans hpol), hread _⟩
  | inputValue hnext hpol =>
    refine ⟨_, .inputValue (hR.source ▸ hnext) (hd.eofPolicy.trans hpol), ?_⟩
    rw [hd.eofValue]
    exact hput _ _
  | inputEnd hnext hpol =>
    refine ⟨_, ?_, hread _⟩
    simp only [Option.map_some, Stop.onward, ExecutionError.onward, ← hR.pointer]
    exact .inputEnd (hR.source ▸ hnext) (hd.eofPolicy.trans hpol)
  | readFault hnext =>
    refine ⟨_, ?_, hread _⟩
    rw [Option.map_some, onward_streamStop, ← hR.pointer]
    exact .readFault (hR.source ▸ hnext)

/-- every command does the same, unless it moves left of the first cell -/
theorem Effect.behind {command : Command} (hd : c.Alike c') (hgrowth : c.allowGrowth = true) (hw : w.Fits c)
    (hv : v.Fits c') (hR : w.Behind d v) (h : Effect c i command w stop w')
    (hgo : ∀ e, stop = some (.error e) → e.kind ≠ .tapeUnderflow) :
    ∃ v', Effect c' i command v (stop.map (Stop.onward d)) v' ∧ w'.Behind d v' := by
  cases command with
  | output => exact h.behind_output hd hR
  | input => exact h.behind_input hd hw hv hR
  | right =>
    cases h with
    | right => exact exists_right_behind (hd.allowGrowth.trans hgrowth) hv hR hR.tape
    | rightGrow => exact exists_right_behind (hd.allowGrowth.trans hgrowth) hv hR (hR.tape.grow _)
    | rightEnd _ hfixed => simp [hgrowth] at hfixed
  | left =>
    cases h with
    | @left _ k hk =>
      have hleft : v.pointer = k + d + 1 := by
        rw [hR.pointer, hk]
        omega
      exact ⟨_, .left hleft, hR.tape, rfl, hR.source, hR.sink, hR.outputBytes, congrArg (· + 1) hR.steps⟩
    | leftEnd => exact absurd rfl (hgo _ rfl)
  | increment =>
    cases h with
    | increment hok =>
      have hok' : v.cell ≠ 255 ∨ c'.wrappingCells = true := by rwa [hR.cell, hd.wrappingCells]
      refine ⟨_, .increment hok', ?_⟩
      rw [hR.cell]
      exact hR.tick.put hw.pointer_lt hv.pointer_lt _
    | incrementEnd hfull hstrict =>
      refine ⟨_, ?_, hR.tick⟩
      simp only [Option.map_some, Stop.onward, ExecutionError.onward, ← hR.pointer]
      exact .incrementEnd (hR.cell.trans hfull) (hd.wrappingCells.trans hstrict)
  | decrement =>
    cases h with
    | decrement hok =>
      have hok' : v.cell ≠ 0 ∨ c'.wrappingCells = true := by rwa [hR.cell, hd.wrappingCells]
      refine ⟨_, .decrement hok', ?_⟩
      rw [hR.cell]
      exact hR.tick.put hw.pointer_lt hv.pointer_lt _
    | decrementEnd hzero hstrict =>
      refine ⟨_, ?_, hR.tick⟩
      simp only [Option.map_some, Stop.onward, ExecutionError.onward, ← hR.pointer]
      exact .decrementEnd (hR.cell.trans hzero) (hd.wrappingCells.trans hstrict)
  | loopStart | loopEnd => cases h

/-- every step does the same, unless it is an underflow -/
theorem Moves.behind (hd : c.Alike c') (hmax : c'.maxSteps = c.maxSteps) (hgrowth : c.allowGrowth = true)
    (hp : p.WellFormed) (hw : w.Fits c) (hv : v.Fits c') (hR : w.Behind d v)
    (hgo : ¬ (Machine.place p c i w).FailsWith .tapeUnderflow) (h : Moves p c i w stop j w') :
    ∃ v', Moves p c' i v (stop.map (Stop.onward d)) j v' ∧ w'.Behind d v' := by
  apply h.transfer_map rfl _ (hR.allowed hmax) (fun w v h => ⟨h.steps, h.cell⟩) (fun w v h => h.tick) hR
  · intro command stop w' hallowed hc he
    apply he.behind hd hgrowth hw hv hR
    rintro e rfl hkind
    refine hgo ⟨e, ?_, hkind⟩
    rw [Machine.step_of_moves hp hw (.plainStop hallowed hc he)]
  · intro limit hlimit _
    refine ⟨hmax.trans hlimit, ?_⟩
    rw [hR.pointer]
    rfl

omit [ByteSource σ] in
theorem Completes.behind (hd : c.Alike c') (hR : w.Behind d v) (h : Completes c i w stop w') :
    ∃ v', Completes c' i v (stop.map (Stop.onward d)) v' ∧ w'.Behind d v' := by
  cases h with
  | nothing hno =>
    rw [← hd.flushOutput, ← hR.outputBytes] at hno
    exact ⟨v, .nothing hno, hR⟩
  | flush hno h0 hf =>
    rw [← hR.outputBytes] at h0
    rw [← hR.sink] at hf
    exact ⟨_, .flush (hd.flushOutput.trans hno) h0 hf, hR.tape, hR.pointer, hR.source, rfl, hR.outputBytes, hR.steps⟩
  | fault hno h0 hf =>
    rw [← hR.outputBytes] at h0
    rw [← hR.sink] at hf
    rw [Option.map_some, onward_streamStop, ← hR.pointer]
    exact ⟨_, .fault (hd.flushOutput.trans hno) h0 hf, hR.tape, hR.pointer, hR.source, rfl, hR.outputBytes, hR.steps⟩

end Steps

/-! ## Runs -/

/-- the second machine is where the first one is, but for `d` cells of zero in front of its tape -/
structure Machine.Behind (d : Nat) (m m' : Machine σ τ) : Prop where
  ip : m'.ip = m.ip
  steps : m'.steps = m.steps
  outputBytes : m'.outputBytes = m.outputBytes
  source : m'.source = m.source
  sink : m'.sink = m.sink
  pointer : m'.pointer = m.pointer + d
  tape : m.tape.Behind d m'.tape

theorem World.Behind.place {c' : Config} (h : w.Behind d v) (i : Nat) :
    (Machine.place p c i w).Behind d (.place p c' i v) :=
  ⟨rfl, h.steps, h.outputBytes, h.source, h.sink, h.pointer, h.tape⟩

/-- what is said of an execution that began `d` cells further right -/
inductive Result.Behind (d : Nat) : Result → Result → Prop where
  | done {i i' : Info} : i'.pointer = i.pointer + d → i'.codeLength = i.codeLength →
      i'.instructions = i.instructions → i'.outputBytes = i.outputBytes → i'.timed = i.timed →
      Behind d (.done i) (.done i')
  | stopped (s : Stop) : Behind d (.stopped s) (.stopped (s.onward d))
  | unfinished : Behind d .unfinished .unfinished

theorem World.Behind.result {c' : Config} (h : w.Behind d v) (htimed : c'.benchExecution = c.benchExecution) (i : Nat)
    (e : Ending) :
    (Result.of (.place p c i w) e).Behind d (.of (.place p c' i v) (e.map (Stop.onward d))) := by
  cases e with
  | finished => exact .done h.pointer rfl h.steps h.outputBytes htimed
  | stopped s => exact .stopped s
  | unfinished => exact .unfinished

namespace Machine

variable [ByteSource σ] [ByteSink τ] {c' : Config}

/-- up to the first underflow the states belong together, and the steps that do not underflow stop alike -/
theorem after_behind (hd : c.Alike c') (hmax : c'.maxSteps = c.maxSteps) (hgrowth : c.allowGrowth = true)
    (hp : p.WellFormed) (hw : w.Fits c) (hv : v.Fits c') (hR : w.Behind d v) (k : Nat)
    (hbefore : ∀ n < k, ¬ ((place p c i w).after n).FailsWith .tapeUnderflow) :
    ((place p c i w).after k).Behind d ((place p c' i v).after k) ∧
      (¬ ((place p c i w).after k).FailsWith .tapeUnderflow →
        ((place p c' i v).after k).step.1 = ((place p c i w).after k).step.1.map (Stop.onward d)) := by
  obtain ⟨j, w₁, v₁, hk, hk', hw₁, hv₁, hR₁⟩ :=
    after_pair_map hp (fun _ _ _ hw hv hR hgo _ _ _ h => h.behind hd hmax hgrowth hp hw hv hR hgo) hw hv hR k
      fun n hn j w' hj => hj ▸ hbefore n hn
  rw [hk, hk']
  constructor
  · exact hR₁.place j
  · intro hgo
    obtain ⟨stop, _, _, _, hs, hs', -⟩ :=
      step_pair_map hp hw₁ hv₁ fun _ _ _ h => h.behind hd hmax hgrowth hp hw₁ hv₁ hR₁ hgo
    rw [hs, hs']

/-- an execution that never underflows comes to the same -/
theorem execute_behind (hd : c.Alike c') (hmax : c'.maxSteps = c.maxSteps) (hgrowth : c.allowGrowth = true)
    (hp : p.WellFormed) (hw : w.Fits c) (hv : v.Fits c') (hR : w.Behind d v) (u : Nat)
    (hnever : ∀ k, (place p c i w).Dispatches k → ¬ ((place p c i w).after k).FailsWith .tapeUnderflow) :
    ∃ e j w' v', (place p c i w).execute u = (e, place p c j w') ∧
      (place p c' i v).execute u = (e.map (Stop.onward d), place p c' j v') ∧ w'.Behind d v' := by
  obtain ⟨e, j, w₁, v₁, hrun, hrun', hR₁⟩ :=
    run_pair_map hp (fun _ _ _ hw hv hR hgo _ _ _ h => h.behind hd hmax hgrowth hp hw hv hR hgo) hw hv hR u
      fun k hk j w' hj => hj ▸ hnever k hk
  obtain ⟨e', w₂, v₂, hR₂, hx, hx'⟩ := execute_pair_map (fun _ _ h => h.behind hd hR₁) hrun hrun' hR₁
  exact ⟨e', j, w₂, v₂, hx, hx', hR₂⟩

end Machine

/-! ## Sessions -/

/-- the configuration with another start -/
def Config.startAt (c : Config) (start : Nat) (h : start < c.tapeLength) : Config :=
  { c with startOffset := start, startOffset_lt := h }

theorem Config.alike_startAt (c : Config) {start : Nat} (h : start < c.tapeLength) : c.Alike (c.startAt start h) :=
  ⟨rfl, rfl, rfl, rfl, rfl⟩

theorem World.behind_initial (c : Config) (h : c.startOffset + d < c.tapeLength) (source : σ) (sink : τ) :
    (World.initial c source sink).Behind d (.initial (c.startAt _ h) source sink) :=
  ⟨.zeros d c.tapeLength c.allowGrowth c.growthChunk, rfl, rfl, rfl, rfl, rfl⟩

/-- what two executions come to, of which the second began `d` cells further right -/
inductive Session.ExecutesBehind (d : Nat) (s s' : Session σ τ) :
    Result × Session σ τ → Result × Session σ τ → Prop where
  | ran {r r' : Result} {m m' : Machine σ τ} : r.Behind d r' → m.Behind d m' →
      ExecutesBehind d s s' (r, s.after m) (r', s'.after m')

/-- **The start does not matter.** Take a machine whose tape grows, and the one of the same session that starts `d` cells
further right. After every number of steps up to the first underflow of the first machine, they stand at the same
command, have done as much and have used the same streams, and the second pointer and the second tape are the first ones
behind `d` cells of zero. Every step but the underflow stops alike, with an error at a cell that is `d` further right. If
the first machine never underflows, so it is for the executions. -/
theorem start_does_not_matter [ByteSource σ] [ByteSink τ] (s : Session σ τ) (d : Nat)
    (hgrowth : s.config.allowGrowth = true) (hstart : s.config.startOffset + d < s.config.tapeLength) (job : Job)
    (hjob : job.Parsed) (m : Machine σ τ) (hm : s.prepare job = .ok m) :
    ∃ m', (s.withConfig (s.config.startAt _ hstart)).prepare job = .ok m' ∧
      (∀ k, (∀ n < k, ¬ (m.after n).FailsWith .tapeUnderflow) →
        (m.after k).Behind d (m'.after k) ∧
          (¬ (m.after k).FailsWith .tapeUnderflow →
            (m'.after k).step.1 = (m.after k).step.1.map (Stop.onward d))) ∧
      ((∀ k, m.Dispatches k → ¬ (m.after k).FailsWith .tapeUnderflow) →
        ∀ u, Session.ExecutesBehind d s (s.withConfig (s.config.startAt _ hstart)) (s.execute u job)
          ((s.withConfig (s.config.startAt _ hstart)).execute u job)) := by
  set c' := s.config.startAt _ hstart
  have hd : s.config.Alike c' := s.config.alike_startAt hstart
  obtain ⟨p, hp, rfl, hm'⟩ := Session.exists_places (d := c') hjob rfl hm
  have hfits := World.fits_initial s.config s.feed.source s.sink
  have hfits' := World.fits_initial c' s.feed.source s.sink
  have hR := World.behind_initial s.config hstart s.feed.source s.sink
  refine ⟨_, hm', Machine.after_behind hd rfl hgrowth hp hfits hfits' hR, ?_⟩
  intro hnever u
  obtain ⟨e, j, w, v, hx, hx', hR'⟩ := Machine.execute_behind hd rfl hgrowth hp hfits hfits' hR
    ((Machine.place p s.config 0 (.initial s.config s.feed.source s.sink)).patience u) hnever
  rw [Session.execute_of_prepare hm hx, Session.execute_of_prepare hm' hx']
  exact .ran (hR'.result rfl j e) (hR'.place j)

/-- on a tape of two cells only the second machine has to extend it; then no byte is left to read -/
theorem start_does_not_matter_two_cells : ∃ (s : Session Source Sink) (m m' : Machine Source Sink),
    s.config.allowGrowth = true ∧ s.config.startOffset + 1 < s.config.tapeLength ∧
      s.prepare (.script (.text ">,")) = .ok m ∧ (m.after 1).Behind 1 (m'.after 1) ∧
      (m.after 1).step.1 = some (.error ⟨.inputExhausted, 1, 1⟩) ∧
      (m'.after 1).step.1 = some (.error ⟨.inputExhausted, 1, 2⟩) := by
  let s : Session Source Sink :=
    .start { tapeLength := 2, eofPolicy := .error } (.replayed (.buffer [])) (.buffer #[])
  obtain ⟨m, hm, hfirst, hsecond⟩ : ∃ m, s.prepare (.script (.text ">,")) = .ok m ∧ m.step.1 = none ∧
      (m.after 1).step.1 = some (.error ⟨.inputExhausted, 1, 1⟩) := by
    refine ⟨_, rfl, ?_⟩
    decide +kernel
  have hstart : s.config.startOffset + 1 < s.config.tapeLength := by decide
  obtain ⟨m', -, hafter, -⟩ := start_does_not_matter s 1 rfl hstart (.script (.text ">,")) trivial m hm
  have hbefore : ∀ n < 1, ¬ (m.after n).FailsWith .tapeUnderflow := by
    rintro n hn ⟨e, he, -⟩
    obtain rfl : n = 0 := Nat.lt_one_iff.1 hn
    cases hfirst.symm.trans he
  have hthere : ¬ (m.after 1).FailsWith .tapeUnderflow := by
    rintro ⟨e, he, hkind⟩
    cases hsecond.symm.trans he
    cases hkind
  obtain ⟨hbehind, hstop⟩ := hafter 1 hbefore
  refine ⟨s, m, m', rfl, hstart, hm, hbehind, hsecond, ?_⟩
  rw [hstop hthere, hsecond]
  rfl

end Brainfuck
