/-
The tape is a memory without an end.

A tape that grows reads as zero past its last cell, before it is extended and after. So nobody who reads cells can tell
how long it is, and two machines whose tapes begin and grow by different lengths run alike.

- `SameCells t u`: the tapes read the same at every index. Such tapes have the same used length
  (`SameCells.usedLength_eq`).
- `Effect.onTape`: every command other than a move to the right does the same on tapes that read the same.
- `Machine.AtEdge`: the next step moves right from the last cell of a tape of the configured length. A tape that cannot
  grow overflows there (`step_of_atEdge`), and behaves like one that can everywhere else.
- `tape_is_unbounded_memory`: both comparisons, for everything that a session can run.
-/
import Brainfuck.Device
import Brainfuck.Proofs.Running
import Brainfuck.Proofs.Simulation

namespace Brainfuck

/-! ## Tapes that read the same -/

/-- zeros behind the cells do not show -/
theorem getD_append_zeros (cells : Array UInt8) (n i : Nat) :
    (cells ++ Array.replicate n 0)[i]?.getD 0 = cells[i]?.getD 0 := by
  rw [Array.getElem?_append]
  split
  · rfl
  · next h =>
    rw [Array.getElem?_eq_none (Nat.le_of_not_lt h), Array.getElem?_replicate]
    split <;> rfl

namespace Tape

/-- the tapes read the same at every index, past their ends too -/
def SameCells (t u : Tape) : Prop := ∀ i, u.read i = t.read i

theorem getD_snapshot (t : Tape) (i : Nat) : t.snapshot[i]?.getD 0 = t.read i := getD_append_zeros ..

theorem SameCells.write {t u : Tape} (h : SameCells t u) {i : Nat} (ht : i < t.length) (hu : i < u.length) (b : UInt8) :
    SameCells (t.write i b) (u.write i b) := by
  intro j
  by_cases hij : i = j
  · subst hij
    rw [read_write_self b ht, read_write_self b hu]
  · rw [read_write_of_ne b hij, read_write_of_ne b hij, h j]

end Tape

theorem usedLength.go_le_iff (cells : Array UInt8) (n u : Nat) :
    usedLength.go cells n ≤ u ↔ ∀ i, u ≤ i → i < n → cells[i]?.getD 0 = 0 := by
  induction n with
  | zero => simp [usedLength.go]
  | succ n ih =>
    rw [usedLength.go]
    split
    · next h0 =>
      rw [ih]
      constructor
      · intro h i hi hn
        rcases Nat.lt_succ_iff_lt_or_eq.1 hn with hlt | rfl
        · exact h i hi hlt
        · exact h0
      · intro h i hi hn
        exact h i hi (Nat.lt_succ_of_lt hn)
    · next h0 =>
      constructor
      · intro hle i hi hn
        omega
      · intro h
        by_contra hlt
        exact h0 (h n (by omega) (Nat.lt_succ_self n))

/-- the used length is the least from which on every cell is zero -/
theorem usedLength_le_iff (cells : Array UInt8) (u : Nat) :
    usedLength cells ≤ u ↔ ∀ i, u ≤ i → cells[i]?.getD 0 = 0 := by
  rw [usedLength, usedLength.go_le_iff]
  constructor
  · intro h i hi
    by_cases hlt : i < cells.size
    · exact h i hi hlt
    · rw [Array.getElem?_eq_none (Nat.le_of_not_lt hlt), Option.getD_none]
  · intro h i hi _
    exact h i hi

/-- the used length depends on nothing but what is read -/
theorem usedLength_congr {a b : Array UInt8} (h : ∀ i : Nat, b[i]?.getD 0 = a[i]?.getD 0) :
    usedLength b = usedLength a := by
  have hle : ∀ n, usedLength b ≤ n ↔ usedLength a ≤ n := by
    intro n
    simp only [usedLength_le_iff, h]
  exact Nat.le_antisymm ((hle _).2 (Nat.le_refl _)) ((hle _).1 (Nat.le_refl _))

theorem Tape.SameCells.usedLength_eq {t u : Tape} (h : SameCells t u) :
    usedLength u.snapshot = usedLength t.snapshot := by
  apply usedLength_congr
  intro i
  rw [getD_snapshot, getD_snapshot, h i]

open Tape

/-! ## Commands on tapes that read the same -/

/-- the configurations agree in all that a command looks at, other than a move to the right -/
structure Config.SameRules (c d : Config) : Prop where
  wrappingCells : d.wrappingCells = c.wrappingCells
  eofPolicy : d.eofPolicy = c.eofPolicy
  eofValue : d.eofValue = c.eofValue
  flushOutput : d.flushOutput = c.flushOutput

variable {σ τ : Type} {p : Program} {c d : Config}

namespace World

/-- the world with another tape -/
def onTape (w : World σ τ) (t : Tape) : World σ τ := { w with tape := t }

/-- the worlds differ in the lengths of their tapes only -/
def SameButLength (w v : World σ τ) : Prop := ∃ t, v = w.onTape t ∧ SameCells w.tape t

theorem initial_eq_onTape (h : d.startOffset = c.startOffset) (source : σ) (sink : τ) :
    initial d source sink = (initial c source sink).onTape (initial d source sink).tape := by
  simp only [initial, onTape, h]

theorem sameCells_initial (c d : Config) (source : σ) (sink : τ) :
    SameCells (initial c source sink).tape (initial d source sink).tape := by
  intro i
  simp [initial]

theorem cell_onTape {w : World σ τ} {t : Tape} (h : SameCells w.tape t) : (w.onTape t).cell = w.cell := h w.pointer

end World

section Commands

variable [ByteSource σ] [ByteSink τ] {i : Nat} {command : Command} {stop : Option Stop} {w w' : World σ τ} {t : Tape}

/-- a command other than a move to the right does the same on a tape that reads the same, and leaves its length -/
theorem Effect.onTape (hd : c.SameRules d) (ht : SameCells w.tape t) (hw : w.pointer < w.tape.length)
    (hlt : w.pointer < t.length) (hcommand : command ≠ .right) (h : Effect c i command w stop w') :
    ∃ t', SameCells w'.tape t' ∧ w'.tape.length = w.tape.length ∧ t'.length = t.length ∧
      Effect d i command (w.onTape t) stop (w'.onTape t') := by
  have hcell : (w.onTape t).cell = w.cell := World.cell_onTape ht
  obtain ⟨hwrap, hpol, hval, hflush⟩ := hd
  -- what is left of an effect that writes the byte `b`
  have hput : ∀ b, SameCells (w.tape.write w.pointer b) (t.write w.pointer b) ∧
      (w.tape.write w.pointer b).length = w.tape.length ∧ (t.write w.pointer b).length = t.length :=
    fun b => ⟨ht.write hw hlt b, length_write .., length_write ..⟩
  cases h with
  | right | rightGrow | rightEnd => exact absurd rfl hcommand
  | left hk => exact ⟨t, ht, rfl, rfl, .left hk⟩
  | leftEnd hk => exact ⟨t, ht, rfl, rfl, .leftEnd hk⟩
  | increment h =>
    obtain ⟨hsame, hlen, hlen'⟩ := hput (w.cell + 1)
    refine ⟨_, hsame, hlen, hlen', ?_⟩
    have he : Effect d i .increment (w.onTape t) none _ := .increment (h.imp (hcell.symm ▸ ·) hwrap.trans)
    rwa [hcell] at he
  | incrementEnd hfull h => exact ⟨t, ht, rfl, rfl, .incrementEnd (hcell.trans hfull) (hwrap.trans h)⟩
  | decrement h =>
    obtain ⟨hsame, hlen, hlen'⟩ := hput (w.cell - 1)
    refine ⟨_, hsame, hlen, hlen', ?_⟩
    have he : Effect d i .decrement (w.onTape t) none _ := .decrement (h.imp (hcell.symm ▸ ·) hwrap.trans)
    rwa [hcell] at he
  | decrementEnd hzero h => exact ⟨t, ht, rfl, rfl, .decrementEnd (hcell.trans hzero) (hwrap.trans h)⟩
  | output hwrite h => exact ⟨t, ht, rfl, rfl, .output (hcell.symm ▸ hwrite) (hflush.trans h)⟩
  | outputFlush hwrite h hf => exact ⟨t, ht, rfl, rfl, .outputFlush (hcell.symm ▸ hwrite) (hflush.trans h) hf⟩
  | writeFault hwrite => exact ⟨t, ht, rfl, rfl, .writeFault (hcell.symm ▸ hwrite)⟩
  | flushFault hwrite h hf => exact ⟨t, ht, rfl, rfl, .flushFault (hcell.symm ▸ hwrite) (hflush.trans h) hf⟩
  | @input _ b source hread =>
    obtain ⟨hsame, hlen, hlen'⟩ := hput b
    exact ⟨_, hsame, hlen, hlen', .input hread⟩
  | inputZero hread h =>
    obtain ⟨hsame, hlen, hlen'⟩ := hput 0
    exact ⟨_, hsame, hlen, hlen', .inputZero hread (hpol.trans h)⟩
  | inputUnchanged hread h => exact ⟨t, ht, rfl, rfl, .inputUnchanged hread (hpol.trans h)⟩
  | inputValue hread h =>
    obtain ⟨hsame, hlen, hlen'⟩ := hput d.eofValue
    refine ⟨_, ?_, ?_, hlen', .inputValue hread (hpol.trans h)⟩
    · rw [← hval]; exact hsame
    · rw [← hval]; exact hlen
  | inputEnd hread h => exact ⟨t, ht, rfl, rfl, .inputEnd hread (hpol.trans h)⟩
  | readFault hread => exact ⟨t, ht, rfl, rfl, .readFault hread⟩

/-- a tape that grows takes every move to the right, whatever its length -/
theorem Effect.right_onTape (hc : c.allowGrowth = true) (hd : d.allowGrowth = true) (ht : SameCells w.tape t)
    (hlt : w.pointer < t.length) (h : Effect c i .right w stop w') :
    ∃ t', SameCells w'.tape t' ∧ Effect d i .right (w.onTape t) stop (w'.onTape t') := by
  obtain ⟨rfl, hw', hcells⟩ : stop = none ∧
      (∀ t', w'.onTape t' = { w.tick with pointer := w.pointer + 1, tape := t' }) ∧ SameCells w.tape w'.tape := by
    cases h with
    | right => exact ⟨rfl, fun _ => rfl, fun _ => rfl⟩
    | rightGrow => exact ⟨rfl, fun _ => rfl, read_grow w.tape _⟩
    | rightEnd _ hno => exact absurd (hc.symm.trans hno) (by decide)
  rcases Nat.lt_or_eq_of_le (Nat.succ_le_of_lt hlt) with hinside | hend
  · refine ⟨t, fun i => (ht i).trans (hcells i).symm, ?_⟩
    rw [hw']
    exact .right hinside
  · refine ⟨t.grow (w.pointer + 2), fun i => ?_, ?_⟩
    · rw [read_grow, ht i, hcells i]
    · rw [hw']
      exact .rightGrow hend hd

end Commands

/-! ## Steps on tapes that read the same -/

section Steps

variable [ByteSource σ] [ByteSink τ] {i j : Nat} {stop : Option Stop} {w w' : World σ τ} {t : Tape}

/-- two tapes that grow, of any lengths -/
theorem Moves.onTape (hd : c.SameRules d) (hmax : d.maxSteps = c.maxSteps) (hgrow : c.allowGrowth = true)
    (hgrow' : d.allowGrowth = true) (hw : w.Fits c) (hlt : w.pointer < t.length) (ht : SameCells w.tape t)
    (h : Moves p c i w stop j w') : ∃ t', Moves p d i (w.onTape t) stop j (w'.onTape t') ∧ SameCells w'.tape t' := by
  let R := fun w v : World σ τ => ∃ t, v = w.onTape t ∧ SameCells w.tape t
  have hlook : ∀ w v, R w v → v.pointer = w.pointer ∧ v.steps = w.steps ∧ v.cell = w.cell := by
    rintro w _ ⟨t, rfl, ht⟩
    exact ⟨rfl, rfl, World.cell_onTape ht⟩
  have htick : ∀ w v, R w v → R w.tick v.tick := by
    rintro w _ ⟨t, rfl, ht⟩
    exact ⟨t, rfl, ht⟩
  have heffect : ∀ command stop w', Effect c i command w stop w' →
      ∃ v', Effect d i command (w.onTape t) stop v' ∧ R w' v' := by
    intro command stop w' he
    by_cases hright : command = .right
    · subst hright
      obtain ⟨t', ht', he'⟩ := he.right_onTape hgrow hgrow' ht hlt
      exact ⟨_, he', t', rfl, ht'⟩
    · obtain ⟨t', ht', -, -, he'⟩ := he.onTape hd ht hw.pointer_lt hlt hright
      exact ⟨_, he', t', rfl, ht'⟩
  obtain ⟨v', hmove, t', rfl, ht'⟩ := h.transfer (v := w.onTape t) (fun _ hl _ => hmax.trans hl)
    (fun hallowed limit hl => hallowed limit (hmax.symm.trans hl)) hlook htick ⟨t, rfl, ht⟩
    fun command stop w' _ _ => heffect command stop w'
  exact ⟨t', hmove, ht'⟩

theorem Moves.sameButLength {v : World σ τ} (hd : c.SameRules d) (hmax : d.maxSteps = c.maxSteps)
    (hgrow : c.allowGrowth = true) (hgrow' : d.allowGrowth = true) (hw : w.Fits c) (hv : v.Fits d)
    (hsame : w.SameButLength v) (h : Moves p c i w stop j w') :
    ∃ v', Moves p d i v stop j v' ∧ w'.SameButLength v' := by
  obtain ⟨t, rfl, ht⟩ := hsame
  obtain ⟨t', hmove', ht'⟩ := h.onTape hd hmax hgrow hgrow' hw hv.pointer_lt ht
  exact ⟨_, hmove', t', rfl, ht'⟩

/-- a tape that does not grow, and one of the same length that does, unless the move is one to the right from the end -/
theorem Moves.unfixed (hd : c.SameRules d) (hmax : d.maxSteps = c.maxSteps) (hw : w.Fits c)
    (hlength : t.length = w.tape.length) (ht : SameCells w.tape t)
    (hedge : ¬ (w.Allowed c ∧ p.commands[i]? = some .right ∧ w.pointer + 1 = w.tape.length))
    (h : Moves p c i w stop j w') :
    ∃ t', Moves p d i (w.onTape t) stop j (w'.onTape t') ∧ SameCells w'.tape t' ∧
      w'.tape.length = w.tape.length ∧ t'.length = w.tape.length := by
  have hlt : w.pointer < t.length := hlength ▸ hw.pointer_lt
  let R := fun w₁ v : World σ τ =>
    ∃ t, v = w₁.onTape t ∧ SameCells w₁.tape t ∧ w₁.tape.length = w.tape.length ∧ t.length = w.tape.length
  have hlook : ∀ w v, R w v → v.pointer = w.pointer ∧ v.steps = w.steps ∧ v.cell = w.cell := by
    rintro w _ ⟨t, rfl, ht, -⟩
    exact ⟨rfl, rfl, World.cell_onTape ht⟩
  have htick : ∀ w v, R w v → R w.tick v.tick := by
    rintro w _ ⟨t, rfl, hrest⟩
    exact ⟨t, rfl, hrest⟩
  have heffect : ∀ command stop w', w.Allowed c → p.commands[i]? = some command → Effect c i command w stop w' →
      ∃ v', Effect d i command (w.onTape t) stop v' ∧ R w' v' := by
    intro command stop w' hallowed hcommand he
    by_cases hright : command = .right
    · subst hright
      cases he with
      | right hinside => exact ⟨_, .right (hlength.symm ▸ hinside), t, rfl, ht, rfl, hlength⟩
      | rightGrow hend | rightEnd hend => exact absurd ⟨hallowed, hcommand, hend⟩ hedge
    · obtain ⟨t', ht', hsame, hsame', he'⟩ := he.onTape hd ht hw.pointer_lt hlt hright
      exact ⟨_, he', t', rfl, ht', hsame, hsame'.trans hlength⟩
  obtain ⟨v', hmove, t', rfl, hrest⟩ := h.transfer (v := w.onTape t) (fun _ hl _ => hmax.trans hl)
    (fun hallowed limit hl => hallowed limit (hmax.symm.trans hl)) hlook htick ⟨t, rfl, ht, rfl, hlength⟩ heffect
  exact ⟨t', hmove, hrest⟩

end Steps

/-! ## Machines -/

namespace Config

/-- the configuration with another first length of the tape, and another least extension -/
def withTape (config : Config) (length chunk : Nat) (hstart : config.startOffset < length) (hchunk : 0 < chunk) :
    Config :=
  { config with
    tapeLength := length
    growthChunk := chunk
    tapeLength_pos := Nat.zero_lt_of_lt hstart
    growthChunk_pos := hchunk
    startOffset_lt := hstart }

/-- the configuration with growth switched on or off -/
def withGrowth (config : Config) (b : Bool) : Config := { config with allowGrowth := b }

end Config

namespace Machine

/-- the machines are in the same state, as far as anyone can tell who only reads cells -/
structure SameMemory (m m' : Machine σ τ) : Prop where
  program : m'.program = m.program
  ip : m'.ip = m.ip
  pointer : m'.pointer = m.pointer
  steps : m'.steps = m.steps
  outputBytes : m'.outputBytes = m.outputBytes
  source : m'.source = m.source
  sink : m'.sink = m.sink
  cells : SameCells m.tape m'.tape

theorem sameMemory_place {i : Nat} {w : World σ τ} {t : Tape} (h : SameCells w.tape t) :
    (place p c i w).SameMemory (place p d i (w.onTape t)) :=
  ⟨rfl, rfl, rfl, rfl, rfl, rfl, rfl, h⟩

theorem SameMemory.finished_eq {m m' : Machine σ τ} (h : m.SameMemory m') : m'.finished = m.finished := by
  rw [finished, finished, h.program, h.ip]

/-- the next step moves to the right from the last cell that the configuration gives the tape -/
structure AtEdge (m : Machine σ τ) : Prop where
  unlimited : m.limitReached = none
  command : m.program.commands[m.ip]? = some .right
  pointer : m.pointer + 1 = m.config.tapeLength

variable [ByteSource σ] [ByteSink τ]

/-- two growing tapes, after any number of steps -/
theorem after_onTape (hp : p.WellFormed) (hd : c.SameRules d) (hmax : d.maxSteps = c.maxSteps)
    (hgrow : c.allowGrowth = true) (hgrow' : d.allowGrowth = true) {i : Nat} {w : World σ τ} {t : Tape}
    (hw : w.Fits c) (hv : (w.onTape t).Fits d) (ht : SameCells w.tape t) (k : Nat) :
    ((place p c i w).after k).SameMemory ((place p d i (w.onTape t)).after k) ∧
      ((place p d i (w.onTape t)).after k).step.1 = ((place p c i w).after k).step.1 := by
  have hkeep : ∀ i (w v : World σ τ), w.Fits c → v.Fits d → w.SameButLength v → True →
      ∀ stop j w', Moves p c i w stop j w' → ∃ v', Moves p d i v stop j v' ∧ w'.SameButLength v' :=
    fun _ _ _ hw hv hsame _ _ _ _ hmove => hmove.sameButLength hd hmax hgrow hgrow' hw hv hsame
  obtain ⟨j, w₁, _, hk, hk', hw₁, hv₁, t₁, rfl, ht₁⟩ :=
    after_pair hp hkeep hw hv ⟨t, rfl, ht⟩ k (fun _ _ _ _ _ => trivial)
  obtain ⟨stop, _, _, _, hs, hs', -⟩ := step_pair hp hw₁ hv₁ (hkeep j w₁ _ hw₁ hv₁ ⟨t₁, rfl, ht₁⟩ trivial)
  rw [hk, hk', hs, hs']
  exact ⟨sameMemory_place ht₁, rfl⟩

omit [ByteSource σ] [ByteSink τ] in
theorem atEdge_place_iff {i : Nat} {w : World σ τ} :
    (place p c i w).AtEdge ↔ w.Allowed c ∧ p.commands[i]? = some .right ∧ w.pointer + 1 = c.tapeLength := by
  constructor
  · intro h
    exact ⟨limitReached_eq_none_iff.1 h.unlimited, h.command, h.pointer⟩
  · rintro ⟨hallowed, hcommand, hpointer⟩
    exact ⟨limitReached_eq_none_iff.2 hallowed, hcommand, hpointer⟩

/-- at the edge a tape that does not grow overflows, and one that does goes on -/
theorem step_of_atEdge (hp : p.WellFormed) (hmax : d.maxSteps = c.maxSteps) (hfixed : c.allowGrowth = false)
    (hgrow : d.allowGrowth = true) {i : Nat} {w : World σ τ} {t : Tape} (hw : w.Fits c) (hv : (w.onTape t).Fits d)
    (hlength : w.tape.length = c.tapeLength) (hlength' : t.length = c.tapeLength) (h : (place p c i w).AtEdge) :
    (place p c i w).step.1 = some (.error ⟨.tapeOverflow c.tapeLength, i, w.pointer⟩) ∧
      (place p d i (w.onTape t)).step.1 = none := by
  obtain ⟨hallowed, hcommand, hpointer⟩ := atEdge_place_iff.1 h
  have hallowed' : (w.onTape t).Allowed d := fun limit hlimit => hallowed limit (hmax.symm.trans hlimit)
  have hstop := step_of_moves hp hw
    (.plainStop hallowed hcommand (.rightEnd (hpointer.trans hlength.symm) hfixed))
  have hgo := step_of_moves hp hv
    (.plain hallowed' hcommand (.rightGrow (w := w.onTape t) (hpointer.trans hlength'.symm) hgrow))
  rw [hstop, hgo, hlength]
  exact ⟨rfl, rfl⟩

/-- a fixed tape and a growing one of the same length, until the edge is reached -/
theorem after_unfixed (hp : p.WellFormed) (hd : c.SameRules d) (hmax : d.maxSteps = c.maxSteps)
    (hfixed : c.allowGrowth = false) (hgrow : d.allowGrowth = true) {i : Nat} {w : World σ τ} {t : Tape}
    (hw : w.Fits c) (hv : (w.onTape t).Fits d) (ht : SameCells w.tape t) (hlength : w.tape.length = c.tapeLength)
    (hlength' : t.length = c.tapeLength) (k : Nat) (hbefore : ∀ n < k, ¬ ((place p c i w).after n).AtEdge) :
    let m := (place p c i w).after k
    let m' := (place p d i (w.onTape t)).after k
    m.SameMemory m' ∧ m'.tape.length = m.tape.length ∧ (¬ m.AtEdge → m'.step.1 = m.step.1) ∧
      (m.AtEdge → m.step.1 = some (.error ⟨.tapeOverflow c.tapeLength, m.ip, m.pointer⟩) ∧ m'.step.1 = none) := by
  intro m m'
  let R := fun w v : World σ τ =>
    ∃ t, v = w.onTape t ∧ SameCells w.tape t ∧ w.tape.length = c.tapeLength ∧ t.length = c.tapeLength
  have hkeep : ∀ i (w v : World σ τ), w.Fits c → v.Fits d → R w v → ¬ (place p c i w).AtEdge →
      ∀ stop j w', Moves p c i w stop j w' → ∃ v', Moves p d i v stop j v' ∧ R w' v' := by
    rintro i w _ hw hv ⟨t, rfl, ht, hl, hl'⟩ hedge stop j w' hmove
    rw [atEdge_place_iff, ← hl] at hedge
    obtain ⟨t', hmove', ht', hl₁, hl₂⟩ := hmove.unfixed hd hmax hw (hl'.trans hl.symm) ht hedge
    exact ⟨_, hmove', t', rfl, ht', hl₁.trans hl, hl₂.trans hl⟩
  obtain ⟨j, w₁, _, hk, hk', hw₁, hv₁, t₁, rfl, ht₁, hl, hl'⟩ :=
    after_pair hp hkeep hw hv ⟨t, rfl, ht, hlength, hlength'⟩ k (fun n hn j w' hj => hj ▸ hbefore n hn)
  have hm : m = place p c j w₁ := hk
  have hm' : m' = place p d j (w₁.onTape t₁) := hk'
  rw [hm, hm']
  refine ⟨sameMemory_place ht₁, hl'.trans hl.symm, fun hedge => ?_, fun hedge => ?_⟩
  · obtain ⟨stop, _, _, _, hs, hs', -⟩ := step_pair hp hw₁ hv₁ (hkeep j w₁ _ hw₁ hv₁ ⟨t₁, rfl, ht₁, hl, hl'⟩ hedge)
    rw [hs, hs']
  · exact step_of_atEdge hp hmax hfixed hgrow hw₁ hv₁ hl hl' hedge

end Machine

/-- **The tape is a memory without an end.** Machines whose tapes grow run alike, whatever the first length of the tape
and the length of its extensions: after every number of steps they are in the same state, and their tapes read the
same. A machine whose tape does not grow runs like one whose tape does, up to its first move to the right from the last
cell. That move overflows; if it never comes, the runs are the same. -/
theorem tape_is_unbounded_memory [ByteSource σ] [ByteSink τ] (s : Session σ τ) (job : Job) (hjob : job.Parsed)
    (m : Machine σ τ) (hm : s.prepare job = .ok m) :
    (s.config.allowGrowth = true →
      ∀ (length chunk : Nat) (hstart : s.config.startOffset < length) (hchunk : 0 < chunk), ∃ m' : Machine σ τ,
        (s.withConfig (s.config.withTape length chunk hstart hchunk)).prepare job = .ok m' ∧
        ∀ k, (m.after k).SameMemory (m'.after k) ∧ (m'.after k).step.1 = (m.after k).step.1 ∧
          usedLength (m'.after k).tape.snapshot = usedLength (m.after k).tape.snapshot) ∧
    (s.config.allowGrowth = false →
      ∃ m' : Machine σ τ, (s.withConfig (s.config.withGrowth true)).prepare job = .ok m' ∧
        (∀ k, (∀ n < k, ¬ (m.after n).AtEdge) →
          (m.after k).SameMemory (m'.after k) ∧ (m'.after k).tape.length = (m.after k).tape.length ∧
          (¬ (m.after k).AtEdge → (m'.after k).step.1 = (m.after k).step.1) ∧
          ((m.after k).AtEdge →
            (m.after k).step.1 =
              some (.error ⟨.tapeOverflow s.config.tapeLength, (m.after k).ip, (m.after k).pointer⟩) ∧
            (m'.after k).step.1 = none)) ∧
        ((∀ n, ¬ (m.after n).AtEdge) → ∀ k e, m.Ends k e ↔ m'.Ends k e)) := by
  have hfits := fun config : Config => World.fits_initial config s.feed.source s.sink
  constructor
  · intro hgrow length chunk hstart hchunk
    let d := s.config.withTape length chunk hstart hchunk
    obtain ⟨p, hp, rfl, hm'⟩ := Session.exists_places (d := d) hjob rfl hm
    refine ⟨_, hm', fun k => ?_⟩
    have hd := World.initial_eq_onTape (c := s.config) (d := d) rfl s.feed.source s.sink
    obtain ⟨hsame, hstop⟩ := Machine.after_onTape hp (c := s.config) (d := d) ⟨rfl, rfl, rfl, rfl⟩ rfl hgrow hgrow
      (hfits s.config) (hd ▸ hfits d) (World.sameCells_initial _ d _ _) k
    rw [hd]
    exact ⟨hsame, hstop, hsame.cells.usedLength_eq⟩
  · intro hfixed
    let d := s.config.withGrowth true
    obtain ⟨p, hp, rfl, hm'⟩ := Session.exists_places (d := d) hjob rfl hm
    have hd := World.initial_eq_onTape (c := s.config) (d := d) rfl s.feed.source s.sink
    have hbefore := Machine.after_unfixed hp (c := s.config) (d := d) (i := 0) ⟨rfl, rfl, rfl, rfl⟩ rfl hfixed
      rfl (hfits s.config) (hd ▸ hfits d) (World.sameCells_initial _ d _ _) rfl rfl
    rw [← hd] at hbefore
    refine ⟨_, hm', hbefore, fun hnever k e => ?_⟩
    have hfin := fun k => (hbefore k fun n _ => hnever n).1.finished_eq
    have hstop := fun k => (hbefore k fun n _ => hnever n).2.2.1 (hnever k)
    constructor
    · exact .congr (fun k _ => hfin k) fun k _ => hstop k
    · exact .congr (fun k _ => (hfin k).symm) fun k _ => (hstop k).symm

/-- a tape of one cell and one of two, extended by one and by three; and a tape of two cells that cannot grow -/
theorem tape_is_unbounded_memory_short_tapes :
    (∃ (s : Session Source Sink) (m m' : Machine Source Sink), s.prepare (.script (.text ">,>")) = .ok m ∧
      m.config.tapeLength = 1 ∧ m.config.growthChunk = 1 ∧ m'.config.tapeLength = 2 ∧ m'.config.growthChunk = 3 ∧
      (m.after 3).SameMemory (m'.after 3) ∧ (m.after 3).tape.length = 3 ∧ (m'.after 3).tape.length = 5) ∧
    ∃ (s : Session Source Sink) (m : Machine Source Sink), s.prepare (.script (.text ">>")) = .ok m ∧
      m.config.allowGrowth = false ∧ ¬ (m.after 0).AtEdge ∧ (m.after 1).AtEdge ∧
      (m.after 1).step.1 = some (.error ⟨.tapeOverflow 2, 1, 1⟩) := by
  constructor
  · let s : Session Source Sink :=
      .start { tapeLength := 1, growthChunk := 1 } (.replayed (.buffer [7])) (.buffer #[])
    obtain ⟨m', hm', hsame⟩ := (tape_is_unbounded_memory s (.script (.text ">,>")) trivial _ rfl).1 rfl 2 3
      (by decide) (by decide)
    refine ⟨s, _, m', rfl, rfl, rfl, ?_, ?_, (hsame 3).1, rfl, ?_⟩
    all_goals
      cases hm'
      rfl
  · let s : Session Source Sink :=
      .start { tapeLength := 2, allowGrowth := false } (.replayed (.buffer [])) (.buffer #[])
    obtain ⟨m', -, hbefore, -⟩ := (tape_is_unbounded_memory s (.script (.text ">>")) trivial _ rfl).2 rfl
    refine ⟨s, _, rfl, rfl, fun h => absurd h.pointer (by decide), ⟨rfl, rfl, rfl⟩, ?_⟩
    refine ((hbefore 1 fun n hn => ?_).2.2.2 ⟨rfl, rfl, rfl⟩).1
    obtain rfl : n = 0 := Nat.lt_one_iff.1 hn
    exact fun h => absurd h.pointer (by decide)

end Brainfuck
