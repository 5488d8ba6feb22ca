/-
What one command does, as a relation.

- `World`: what commands work on, apart from the program and the index.
- `Effect config i c w stop w'`: the command `c`, no bracket, takes `w` to `w'`. It succeeds if `stop` is `none`, and
  otherwise stops for that reason, which names the index `i` of the command.
- `dispatch_of_effect`: the machine does what the relation says, and `exists_effect`: the relation says something of
  every command. Both ask that the world fits the configuration (`World.Fits`), which every effect keeps
  (`Effect.fits`).
-/
import Mathlib.Tactic
import Brainfuck.Machine

namespace Brainfuck

/-- what the commands of a program work on -/
structure World (σ τ : Type) where
  tape : Tape
  pointer : Nat
  source : σ
  sink : τ
  outputBytes : Nat
  steps : Nat

namespace World

variable {σ τ : Type}

/-- before the first command -/
def initial (config : Config) (source : σ) (sink : τ) : World σ τ where
  tape := .zeros config.tapeLength config.allowGrowth config.growthChunk
  pointer := config.startOffset
  source := source
  sink := sink
  outputBytes := 0
  steps := 0

def cell (w : World σ τ) : UInt8 := w.tape.read w.pointer

/-- one more command counted -/
def tick (w : World σ τ) : World σ τ := { w with steps := w.steps + 1 }

/-- the cell under the pointer replaced -/
def put (w : World σ τ) (b : UInt8) : World σ τ := { w with tape := w.tape.write w.pointer b }

@[simp] theorem pointer_put (w : World σ τ) (b : UInt8) : (w.put b).pointer = w.pointer := rfl

@[simp] theorem tape_put (w : World σ τ) (b : UInt8) : (w.put b).tape = w.tape.write w.pointer b := rfl

@[simp] theorem pointer_tick (w : World σ τ) : w.tick.pointer = w.pointer := rfl

@[simp] theorem tape_tick (w : World σ τ) : w.tick.tape = w.tape := rfl

/-- the tape is as configured, and the pointer is on it -/
structure Fits (config : Config) (w : World σ τ) : Prop where
  pointer_lt : w.pointer < w.tape.length
  length_le : config.tapeLength ≤ w.tape.length
  growable : w.tape.growable = config.allowGrowth
  growthChunk : w.tape.growthChunk = config.growthChunk

theorem fits_initial (config : Config) (source : σ) (sink : τ) : (initial config source sink).Fits config :=
  ⟨config.startOffset_lt, Nat.le_refl _, rfl, rfl⟩

/-- the step limit, if there is one, allows another command -/
def Allowed (config : Config) (w : World σ τ) : Prop := ∀ limit, config.maxSteps = some limit → w.steps < limit

theorem allowed_of_unlimited {config : Config} (hmax : config.maxSteps = none) (w : World σ τ) : w.Allowed config := by
  intro limit h
  rw [hmax] at h
  cases h

end World

/-! ## One command -/

section Effect

variable {σ τ : Type} [ByteSource σ] [ByteSink τ]

/-- why a machine stops at a command with a fault of a stream -/
def streamStop (stream : String) (f : Fault) (i pointer : Nat) : Stop :=
  if f.kind.isInputOutput then .error ⟨.ioFailure s!"{stream}: {f.message}", i, pointer⟩ else .fault f

/-- what a command that is no bracket does -/
inductive Effect (config : Config) (i : Nat) : Command → World σ τ → Option Stop → World σ τ → Prop where
  | right {w : World σ τ} : w.pointer + 1 < w.tape.length →
      Effect config i .right w none { w.tick with pointer := w.pointer + 1 }
  | rightGrow {w : World σ τ} : w.pointer + 1 = w.tape.length → config.allowGrowth = true →
      Effect config i .right w none { w.tick with pointer := w.pointer + 1, tape := w.tape.grow (w.pointer + 2) }
  | rightEnd {w : World σ τ} : w.pointer + 1 = w.tape.length → config.allowGrowth = false →
      Effect config i .right w (some (.error ⟨.tapeOverflow w.tape.length, i, w.pointer⟩)) w.tick
  | left {w : World σ τ} {k : Nat} : w.pointer = k + 1 → Effect config i .left w none { w.tick with pointer := k }
  | leftEnd {w : World σ τ} : w.pointer = 0 →
      Effect config i .left w (some (.error ⟨.tapeUnderflow, i, 0⟩)) w.tick
  | increment {w : World σ τ} : w.cell ≠ 255 ∨ config.wrappingCells = true →
      Effect config i .increment w none (w.tick.put (w.cell + 1))
  | incrementEnd {w : World σ τ} : w.cell = 255 → config.wrappingCells = false →
      Effect config i .increment w (some (.error ⟨.cellOverflow 256, i, w.pointer⟩)) w.tick
  | decrement {w : World σ τ} : w.cell ≠ 0 ∨ config.wrappingCells = true →
      Effect config i .decrement w none (w.tick.put (w.cell - 1))
  | decrementEnd {w : World σ τ} : w.cell = 0 → config.wrappingCells = false →
      Effect config i .decrement w (some (.error ⟨.cellOverflow (-1), i, w.pointer⟩)) w.tick
  | output {w : World σ τ} {sink : τ} : ByteSink.write w.cell w.sink = (none, sink) → config.flushOutput = false →
      Effect config i .output w none { w.tick with sink := sink, outputBytes := w.outputBytes + 1 }
  | outputFlush {w : World σ τ} {sink flushed : τ} : ByteSink.write w.cell w.sink = (none, sink) →
      config.flushOutput = true → ByteSink.flush sink = (none, flushed) →
      Effect config i .output w none { w.tick with sink := flushed, outputBytes := w.outputBytes + 1 }
  | writeFault {w : World σ τ} {f : Fault} {sink : τ} : ByteSink.write w.cell w.sink = (some f, sink) →
      Effect config i .output w (some (streamStop "output sink" f i w.pointer)) { w.tick with sink := sink }
  | flushFault {w : World σ τ} {f : Fault} {sink flushed : τ} : ByteSink.write w.cell w.sink = (none, sink) →
      config.flushOutput = true → ByteSink.flush sink = (some f, flushed) →
      Effect config i .output w (some (streamStop "output sink" f i w.pointer)) { w.tick with sink := flushed }
  | input {w : World σ τ} {b : UInt8} {source : σ} : ByteSource.next w.source = (.byte b, source) →
      Effect config i .input w none ({ w.tick with source := source }.put b)
  | inputZero {w : World σ τ} {source : σ} : ByteSource.next w.source = (.ended, source) → config.eofPolicy = .zero →
      Effect config i .input w none ({ w.tick with source := source }.put 0)
  | inputUnchanged {w : World σ τ} {source : σ} : ByteSource.next w.source = (.ended, source) →
      config.eofPolicy = .unchanged → Effect config i .input w none { w.tick with source := source }
  | inputValue {w : World σ τ} {source : σ} : ByteSource.next w.source = (.ended, source) →
      config.eofPolicy = .value →
      Effect config i .input w none ({ w.tick with source := source }.put config.eofValue)
  | inputEnd {w : World σ τ} {source : σ} : ByteSource.next w.source = (.ended, source) → config.eofPolicy = .error →
      Effect config i .input w (some (.error ⟨.inputExhausted, i, w.pointer⟩)) { w.tick with source := source }
  | readFault {w : World σ τ} {f : Fault} {source : σ} : ByteSource.next w.source = (.failed f, source) →
      Effect config i .input w (some (streamStop "input source" f i w.pointer)) { w.tick with source := source }

theorem exists_effect_output (config : Config) (i : Nat) (w : World σ τ) :
    ∃ stop w', Effect config i .output w stop w' := by
  rcases hw : ByteSink.write w.cell w.sink with ⟨_ | f, sink⟩
  · cases hflush : config.flushOutput
    · exact ⟨_, _, .output hw hflush⟩
    · rcases hf : ByteSink.flush sink with ⟨_ | f, flushed⟩
      · exact ⟨_, _, .outputFlush hw hflush hf⟩
      · exact ⟨_, _, .flushFault hw hflush hf⟩
  · exact ⟨_, _, .writeFault hw⟩

theorem exists_effect_input (config : Config) (i : Nat) (w : World σ τ) :
    ∃ stop w', Effect config i .input w stop w' := by
  rcases hr : ByteSource.next w.source with ⟨b | _ | f, source⟩
  · exact ⟨_, _, .input hr⟩
  · cases hp : config.eofPolicy with
    | zero => exact ⟨_, _, .inputZero hr hp⟩
    | unchanged => exact ⟨_, _, .inputUnchanged hr hp⟩
    | error => exact ⟨_, _, .inputEnd hr hp⟩
    | value => exact ⟨_, _, .inputValue hr hp⟩
  · exact ⟨_, _, .readFault hr⟩

/-- every command that is no bracket has an effect -/
theorem exists_effect {config : Config} {w : World σ τ} (hw : w.Fits config) (i : Nat) {c : Command} (hc : c.IsPlain) :
    ∃ stop w', Effect config i c w stop w' := by
  cases c with
  | right =>
    rcases Nat.lt_or_eq_of_le (Nat.succ_le_of_lt hw.pointer_lt) with h | h
    · exact ⟨_, _, .right h⟩
    · cases hg : config.allowGrowth
      · exact ⟨_, _, .rightEnd h hg⟩
      · exact ⟨_, _, .rightGrow h hg⟩
  | left =>
    cases h : w.pointer with
    | zero => exact ⟨_, _, .leftEnd h⟩
    | succ k => exact ⟨_, _, .left h⟩
  | increment =>
    by_cases h : w.cell ≠ 255 ∨ config.wrappingCells = true
    · exact ⟨_, _, .increment h⟩
    · simp only [not_or, not_not, Bool.not_eq_true] at h
      exact ⟨_, _, .incrementEnd h.1 h.2⟩
  | decrement =>
    by_cases h : w.cell ≠ 0 ∨ config.wrappingCells = true
    · exact ⟨_, _, .decrement h⟩
    · simp only [not_or, not_not, Bool.not_eq_true] at h
      exact ⟨_, _, .decrementEnd h.1 h.2⟩
  | output => exact exists_effect_output config i w
  | input => exact exists_effect_input config i w
  | loopStart => exact absurd rfl hc.1
  | loopEnd => exact absurd rfl hc.2

end Effect

/-! ## The machine carries out the effects -/

namespace Machine

variable {σ τ : Type}

/-- the machine of a program whose next command has the index `i` -/
def place (p : Program) (config : Config) (i : Nat) (w : World σ τ) : Machine σ τ where
  program := p
  config := config
  source := w.source
  sink := w.sink
  tape := w.tape
  pointer := w.pointer
  ip := i
  steps := w.steps
  outputBytes := w.outputBytes

theorem finished_place {p : Program} {config : Config} {i : Nat} {w : World σ τ} :
    (place p config i w).finished = decide (p.length ≤ i) := rfl

/-- the index after a command at `i` -/
def nextIndex (i : Nat) : Option Stop → Nat
  | none => i + 1
  | some _ => i

theorem store_of_byte {m : Machine σ τ} (h : m.pointer < m.tape.length) {v : Int} {b : UInt8}
    (hb : (b.toNat : Int) = v % 256) (hv : 0 ≤ v ∧ v ≤ 255 ∨ m.config.wrappingCells = true) :
    m.store v = advance (m.setCell b) := by
  unfold store
  split_ifs with hrange hwrap
  · rw [← put_of_lt h, hb, Int.emod_eq_of_lt hrange.1 (by omega)]
  · rw [← put_of_lt h, hb]
  · exact absurd (hv.resolve_left hrange) hwrap

theorem store_of_overflow {m : Machine σ τ} {v : Int} (hv : ¬ (0 ≤ v ∧ v ≤ 255))
    (hw : m.config.wrappingCells = false) : m.store v = m.fail (.cellOverflow v) := by
  simp [store, hv, hw]

theorem toNat_add_one (b : UInt8) : ((b + 1).toNat : Int) = ((b.toNat : Int) + 1) % 256 := by
  rw [UInt8.toNat_add]
  simp

theorem toNat_sub_one (b : UInt8) : ((b - 1).toNat : Int) = ((b.toNat : Int) + -1) % 256 := by
  have := b.toNat_lt
  rw [UInt8.toNat_sub]
  simp
  omega

theorem failStream_eq (m : Machine σ τ) (stream : String) (f : Fault) :
    m.failStream stream f = (some (streamStop stream f m.ip m.pointer), m) := by
  unfold failStream streamStop
  split <;> rfl

variable [ByteSource σ] [ByteSink τ]

theorem moveRight_of_effect {p : Program} {config : Config} {i : Nat} {w w' : World σ τ} {stop : Option Stop}
    (hw : w.Fits config) (h : Effect config i .right w stop w') :
    (place p config i w.tick).moveRight = (stop, place p config (nextIndex i stop) w') := by
  cases h with
  | right hlt => exact if_pos hlt
  | rightGrow hend hg =>
    have hgrow : w.tape.growable = true := hw.growable.trans hg
    simp [moveRight, place, World.tick, hend, hgrow, advance, nextIndex]
  | rightEnd hend hg =>
    have hgrow : w.tape.growable = false := hw.growable.trans hg
    simp [moveRight, place, World.tick, hend, hgrow, fail, nextIndex]

theorem moveLeft_of_effect {p : Program} {config : Config} {i : Nat} {w w' : World σ τ} {stop : Option Stop}
    (h : Effect config i .left w stop w') :
    (place p config i w.tick).moveLeft = (stop, place p config (nextIndex i stop) w') := by
  cases h with
  | left hk => simp [moveLeft, place, World.tick, hk, advance, nextIndex]
  | leftEnd hk => simp [moveLeft, place, World.tick, hk, fail, nextIndex]

theorem add_of_effect_increment {p : Program} {config : Config} {i : Nat} {w w' : World σ τ} {stop : Option Stop}
    (hw : w.Fits config) (h : Effect config i .increment w stop w') :
    (place p config i w.tick).add 1 = (stop, place p config (nextIndex i stop) w') := by
  have hlt : (place p config i w.tick).pointer < (place p config i w.tick).tape.length := hw.pointer_lt
  rw [add, withCell_of_lt hlt]
  cases h with
  | increment hok =>
    refine store_of_byte hlt (toNat_add_one w.cell) (hok.imp (fun hne => ?_) id)
    have h255 : w.cell.toNat ≠ 255 := fun h => hne (UInt8.toNat_inj.1 h)
    have := w.cell.toNat_lt
    change 0 ≤ (w.cell.toNat : Int) + 1 ∧ (w.cell.toNat : Int) + 1 ≤ 255
    omega
  | incrementEnd hfull hwrap =>
    change (place p config i w.tick).store (w.cell.toNat + 1) = _
    rw [hfull]
    exact store_of_overflow (by decide) hwrap

theorem add_of_effect_decrement {p : Program} {config : Config} {i : Nat} {w w' : World σ τ} {stop : Option Stop}
    (hw : w.Fits config) (h : Effect config i .decrement w stop w') :
    (place p config i w.tick).add (-1) = (stop, place p config (nextIndex i stop) w') := by
  have hlt : (place p config i w.tick).pointer < (place p config i w.tick).tape.length := hw.pointer_lt
  rw [add, withCell_of_lt hlt]
  cases h with
  | decrement hok =>
    refine store_of_byte hlt (toNat_sub_one w.cell) (hok.imp (fun hne => ?_) id)
    have h0 : w.cell.toNat ≠ 0 := fun h => hne (UInt8.toNat_inj.1 h)
    have := w.cell.toNat_lt
    change 0 ≤ (w.cell.toNat : Int) + -1 ∧ (w.cell.toNat : Int) + -1 ≤ 255
    omega
  | decrementEnd hzero hwrap =>
    change (place p config i w.tick).store (w.cell.toNat + -1) = _
    rw [hzero]
    exact store_of_overflow (by decide) hwrap

theorem output_of_effect {p : Program} {config : Config} {i : Nat} {w w' : World σ τ} {stop : Option Stop}
    (hw : w.Fits config) (h : Effect config i .output w stop w') :
    (place p config i w.tick).output = (stop, place p config (nextIndex i stop) w') := by
  have hlt : (place p config i w.tick).pointer < (place p config i w.tick).tape.length := hw.pointer_lt
  have hcell : (place p config i w.tick).cell = w.cell := rfl
  have hsink : (place p config i w.tick).sink = w.sink := rfl
  have hflush : (place p config i w.tick).config = config := rfl
  rw [output, withCell_of_lt hlt, hcell, hsink, hflush]
  cases h with
  | output hwrite hno => rw [hwrite]; simp only [hno]; rfl
  | outputFlush hwrite hyes hflushed => rw [hwrite]; simp only [hyes, if_true, hflushed]; rfl
  | writeFault hwrite => rw [hwrite]; exact failStream_eq _ _ _
  | flushFault hwrite hyes hflushed =>
    rw [hwrite]
    simp only [hyes, if_true, hflushed]
    exact failStream_eq _ _ _

theorem input_of_effect {p : Program} {config : Config} {i : Nat} {w w' : World σ τ} {stop : Option Stop}
    (hw : w.Fits config) (h : Effect config i .input w stop w') :
    (place p config i w.tick).input = (stop, place p config (nextIndex i stop) w') := by
  have hput : ∀ (source : σ) (b : UInt8), put { place p config i w.tick with source := source } b.toNat =
      (none, place p config (i + 1) ({ w.tick with source := source }.put b)) := fun source b =>
    put_of_lt (m := { place p config i w.tick with source := source }) hw.pointer_lt b
  have hsource : (place p config i w.tick).source = w.source := rfl
  have hpolicy : (place p config i w.tick).config = config := rfl
  rw [input, hsource]
  cases h with
  | input hread => rw [hread]; exact hput _ _
  | inputZero hread hpol => rw [hread]; simp only [hpolicy, hpol]; exact hput _ 0
  | inputUnchanged hread hpol => rw [hread]; simp only [hpolicy, hpol]; rfl
  | inputValue hread hpol => rw [hread]; simp only [hpolicy, hpol]; exact hput _ _
  | inputEnd hread hpol => rw [hread]; simp only [hpolicy, hpol]; rfl
  | readFault hread => rw [hread]; exact failStream_eq _ _ _

/-- the machine carries out a command as its effect says -/
theorem dispatch_of_effect {p : Program} {config : Config} {i : Nat} {c : Command} {w w' : World σ τ}
    {stop : Option Stop} (hw : w.Fits config) (h : Effect config i c w stop w') :
    (place p config i w.tick).dispatch c = (stop, place p config (nextIndex i stop) w') := by
  cases c with
  | right => exact moveRight_of_effect hw h
  | left => exact moveLeft_of_effect h
  | increment => exact add_of_effect_increment hw h
  | decrement => exact add_of_effect_decrement hw h
  | output => exact output_of_effect hw h
  | input => exact input_of_effect hw h
  | loopStart => cases h
  | loopEnd => cases h

end Machine

/-! ## What an effect keeps -/

section Kept

variable {σ τ : Type} [ByteSource σ] [ByteSink τ] {config : Config}

/-- the program and the configuration stay, and the world fits again -/
theorem Effect.fits {i : Nat} {c : Command} {stop : Option Stop} {w w' : World σ τ} (hw : w.Fits config)
    (h : Effect config i c w stop w') : w'.Fits config := by
  cases h with
  | right hlt => exact ⟨hlt, hw.length_le, hw.growable, hw.growthChunk⟩
  | rightGrow hend hg =>
    have hlen := w.tape.le_length_grow (w.pointer + 2)
    have := hw.length_le
    refine ⟨?_, ?_, by simpa using hw.growable, by simpa using hw.growthChunk⟩
    · change w.pointer + 1 < (w.tape.grow (w.pointer + 2)).length
      omega
    · change config.tapeLength ≤ (w.tape.grow (w.pointer + 2)).length
      omega
  | left hk =>
    have hlt := hw.pointer_lt
    rw [hk] at hlt
    exact ⟨Nat.lt_of_succ_lt hlt, hw.length_le, hw.growable, hw.growthChunk⟩
  | increment | decrement | input | inputZero | inputValue =>
    exact ⟨by simpa using hw.pointer_lt, by simpa using hw.length_le, by simpa using hw.growable,
      by simpa using hw.growthChunk⟩
  | _ => exact ⟨hw.pointer_lt, hw.length_le, hw.growable, hw.growthChunk⟩

/-- the configurations agree in all that a command looks at -/
structure Config.Alike (c d : Config) : Prop where
  allowGrowth : d.allowGrowth = c.allowGrowth
  wrappingCells : d.wrappingCells = c.wrappingCells
  eofPolicy : d.eofPolicy = c.eofPolicy
  eofValue : d.eofValue = c.eofValue
  flushOutput : d.flushOutput = c.flushOutput

/-- an effect under another configuration: of what is strict in the first one, only that matters by which the command
does not stop, or by which it does -/
theorem Effect.congr_of {d : Config} {i : Nat} {c : Command} {stop : Option Stop} {w w' : World σ τ}
    (h : Effect config i c w stop w') (hgrowth : d.allowGrowth = config.allowGrowth)
    (hvalue : d.eofValue = config.eofValue) (hflush : c = .output → d.flushOutput = config.flushOutput)
    (hwrap : config.wrappingCells = true → d.wrappingCells = true)
    (hstrict : ∀ v, config.wrappingCells = false → stop = some (.error ⟨.cellOverflow v, i, w.pointer⟩) →
      d.wrappingCells = false)
    (hpolicy : ∀ policy, config.eofPolicy = policy →
      (policy = .error → stop = some (.error ⟨.inputExhausted, i, w.pointer⟩)) → d.eofPolicy = policy) :
    Effect d i c w stop w' := by
  cases h with
  | right hlt => exact .right hlt
  | rightGrow hend h => exact .rightGrow hend (hgrowth.trans h)
  | rightEnd hend h => exact .rightEnd hend (hgrowth.trans h)
  | left hk => exact .left hk
  | leftEnd hk => exact .leftEnd hk
  | increment h => exact .increment (h.imp_right hwrap)
  | incrementEnd hfull h => exact .incrementEnd hfull (hstrict _ h rfl)
  | decrement h => exact .decrement (h.imp_right hwrap)
  | decrementEnd hzero h => exact .decrementEnd hzero (hstrict _ h rfl)
  | output hwrite h => exact .output hwrite ((hflush rfl).trans h)
  | outputFlush hwrite h hf => exact .outputFlush hwrite ((hflush rfl).trans h) hf
  | writeFault hwrite => exact .writeFault hwrite
  | flushFault hwrite h hf => exact .flushFault hwrite ((hflush rfl).trans h) hf
  | input hread => exact .input hread
  | inputZero hread h => exact .inputZero hread (hpolicy _ h (by rintro ⟨⟩))
  | inputUnchanged hread h => exact .inputUnchanged hread (hpolicy _ h (by rintro ⟨⟩))
  | inputValue hread h =>
    rw [← hvalue]
    exact .inputValue hread (hpolicy _ h (by rintro ⟨⟩))
  | inputEnd hread h => exact .inputEnd hread (hpolicy _ h fun _ => rfl)
  | readFault hread => exact .readFault hread

/-- an effect does not depend on the rest of the configuration -/
theorem Effect.congr {d : Config} (hd : config.Alike d) {i : Nat} {c : Command} {stop : Option Stop} {w w' : World σ τ}
    (h : Effect config i c w stop w') : Effect d i c w stop w' := by
  apply h.congr_of hd.allowGrowth hd.eofValue fun _ => hd.flushOutput
  · exact hd.wrappingCells.trans
  · intro _ hstrict _
    exact hd.wrappingCells.trans hstrict
  · intro _ hpolicy _
    exact hd.eofPolicy.trans hpolicy

/-- a command that is dispatched is counted, also if it fails -/
theorem Effect.steps_eq {i : Nat} {c : Command} {stop : Option Stop} {w w' : World σ τ}
    (h : Effect config i c w stop w') : w'.steps = w.steps + 1 := by
  cases h <;> rfl

end Kept

end Brainfuck
