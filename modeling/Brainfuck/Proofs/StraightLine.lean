/-
Programs that only move the pointer and count, in closed form.

- `displacement cs`: how far commands take the pointer to the right. `position start cs k`: where it is after the first
  `k` commands, as long as it does not come to the left of cell zero.
- `tally start cs i`: the increments less the decrements among the commands that are executed while the pointer is at
  the cell `i`.
- `World.Tallies start cs w`: the world is the one that `cs` make, its pointer at their displacement and each cell at
  its tally modulo 256. One more command keeps this (`Tallies.effect`), unless it is a move to the left from cell zero
  (`Tallies.underflow`).
- `Machine.dispatches_straight`: so every command is dispatched while no position is negative, and this holds of each
  state.
- `straight_line_in_closed_form`: how such a program ends, and in which state, for every start.
-/
import Brainfuck.Device
import Brainfuck.Proofs.Parts

namespace Brainfuck

open Brainfuck.Bracket

/-! ## Positions and tallies -/

/-- the commands are moves, increments and decrements -/
def StraightLine (cs : List Command) : Prop :=
  ∀ c ∈ cs, c = .right ∨ c = .left ∨ c = .increment ∨ c = .decrement

instance (cs : List Command) : Decidable (StraightLine cs) :=
  inferInstanceAs (Decidable (∀ c ∈ cs, c = .right ∨ c = .left ∨ c = .increment ∨ c = .decrement))

/-- how far commands take the pointer to the right: the moves to the right, less those to the left -/
def displacement (cs : List Command) : Int := cs.count .right - cs.count .left

/-- where the pointer is after the first `k` commands -/
def position (start : Nat) (cs : List Command) (k : Nat) : Int := start + displacement (cs.take k)

/-- how often the command `c` is executed while the pointer is at the cell `i` -/
def countAt (start : Nat) (cs : List Command) (c : Command) (i : Nat) : Nat :=
  (List.range cs.length).countP fun k => cs[k]? = some c ∧ position start cs k = i

/-- the increments less the decrements that are executed while the pointer is at the cell `i` -/
def tally (start : Nat) (cs : List Command) (i : Nat) : Int :=
  countAt start cs .increment i - countAt start cs .decrement i

/-- no prefix leads to the left of cell zero -/
def StaysOnTape (start : Nat) (cs : List Command) : Prop := ∀ k, 0 ≤ position start cs k

section Counting

variable {start k i : Nat} {cs : List Command} {c d : Command}

theorem displacement_concat (cs : List Command) (c : Command) :
    displacement (cs ++ [c]) = displacement cs + ((if c = .right then 1 else 0) - if c = .left then 1 else 0) := by
  simp only [displacement, List.count_append, List.count_singleton, beq_iff_eq, Int.natCast_add, Nat.cast_ite,
    Nat.cast_one, Nat.cast_zero]
  ring

theorem position_of_le (start : Nat) (h : cs.length ≤ k) : position start cs k = position start cs cs.length := by
  rw [position, position, List.take_of_length_le h, List.take_length]

/-- the prefixes are those of at most all commands -/
theorem staysOnTape_iff : StaysOnTape start cs ↔ ∀ k < cs.length + 1, 0 ≤ position start cs k := by
  constructor
  · intro h k _
    exact h k
  · intro h k
    rcases Nat.lt_or_ge k cs.length with hk | hk
    · exact h k (Nat.lt_succ_of_lt hk)
    · rw [position_of_le start hk]
      exact h _ (Nat.lt_succ_self _)

instance (start : Nat) (cs : List Command) : Decidable (StaysOnTape start cs) := decidable_of_iff _ staysOnTape_iff.symm

theorem take_succ_of_getElem? (h : cs[k]? = some c) : cs.take (k + 1) = cs.take k ++ [c] := by
  rw [List.take_add_one, h, Option.toList_some]

/-- the last command is executed where the others have led -/
theorem countAt_concat (start : Nat) (cs : List Command) (d c : Command) (i : Nat) :
    countAt start (cs ++ [d]) c i =
      countAt start cs c i + if d = c ∧ (start : Int) + displacement cs = i then 1 else 0 := by
  have hfront : (List.range cs.length).countP
        (fun k => (cs ++ [d])[k]? = some c ∧ position start (cs ++ [d]) k = i) = countAt start cs c i := by
    refine List.countP_congr fun k hk => ?_
    have hlt : k < cs.length := List.mem_range.1 hk
    rw [List.getElem?_append_left hlt, position, List.take_append_of_le_length (Nat.le_of_lt hlt), position]
  have hlast : position start (cs ++ [d]) cs.length = start + displacement cs := by
    rw [position, List.take_left' rfl]
  rw [countAt, List.length_append, List.length_singleton, List.range_succ, List.countP_append, hfront,
    List.countP_singleton]
  simp [hlast]

theorem tally_concat_increment (start : Nat) (cs : List Command) (i : Nat) : tally start (cs ++ [.increment]) i =
    tally start cs i + if (start : Int) + displacement cs = i then 1 else 0 := by
  simp only [tally, countAt_concat, reduceCtorEq, false_and, true_and, if_false, Nat.add_zero, Int.natCast_add,
    Nat.cast_ite, Nat.cast_one, Nat.cast_zero]
  ring

theorem tally_concat_decrement (start : Nat) (cs : List Command) (i : Nat) : tally start (cs ++ [.decrement]) i =
    tally start cs i + if (start : Int) + displacement cs = i then -1 else 0 := by
  simp only [tally, countAt_concat, reduceCtorEq, false_and, true_and, if_false, Nat.add_zero, Int.natCast_add,
    Nat.cast_ite, Nat.cast_one, Nat.cast_zero]
  split <;> ring

/-- a move executes no increment and no decrement -/
theorem tally_concat_move (start : Nat) (cs : List Command) (i : Nat) (hc : c = .right ∨ c = .left) :
    tally start (cs ++ [c]) i = tally start cs i := by
  rcases hc with rfl | rfl <;> simp [tally, countAt_concat]

end Counting

/-! ## One command -/

/-- cells wrap around, the tape grows, and steps are not limited -/
structure Config.Unbounded (config : Config) : Prop where
  wrappingCells : config.wrappingCells = true
  allowGrowth : config.allowGrowth = true
  maxSteps : config.maxSteps = none

section Steps

variable {σ τ : Type} {config : Config} {start i : Nat} {cs : List Command} {c : Command} {w : World σ τ}

namespace World

/-- the world is the one that the commands make: the pointer is at their displacement, and each cell holds its tally
modulo 256 -/
structure Tallies (start : Nat) (cs : List Command) (w : World σ τ) : Prop where
  pointer : (w.pointer : Int) = start + displacement cs
  cells : ∀ i, ((w.tape.read i).toNat : Int) = tally start cs i % 256
  steps : w.steps = cs.length
  outputBytes : w.outputBytes = 0

theorem tallies_initial (config : Config) (source : σ) (sink : τ) :
    Tallies config.startOffset [] (initial config source sink) where
  pointer := by simp [initial, displacement]
  cells := by simp [initial, tally, countAt]
  steps := rfl
  outputBytes := rfl

namespace Tallies

/-- a number added to the cell under the pointer is added to its tally -/
theorem put {n : Int} {b : UInt8} (h : Tallies start cs w) (hw : w.pointer < w.tape.length)
    (hpointer : displacement (cs ++ [c]) = displacement cs)
    (htally : ∀ i, tally start (cs ++ [c]) i = tally start cs i + if (start : Int) + displacement cs = i then n else 0)
    (hb : (b.toNat : Int) = ((w.cell.toNat : Int) + n) % 256) : Tallies start (cs ++ [c]) (w.tick.put b) where
  pointer := by rw [hpointer]; exact h.pointer
  cells := by
    intro i
    rw [htally, ← h.pointer]
    by_cases hi : w.pointer = i
    · subst hi
      have hread : (w.tick.put b).tape.read w.pointer = b := Tape.read_write_self b hw
      have hcell : (w.cell.toNat : Int) = tally start cs w.pointer % 256 := h.cells w.pointer
      rw [hread, if_pos rfl, hb, hcell, Int.emod_add_emod]
    · have hread : (w.tick.put b).tape.read i = w.tape.read i := Tape.read_write_of_ne b hi
      rw [hread, if_neg (by omega), Int.add_zero]
      exact h.cells i
  steps := by
    rw [List.length_append, List.length_singleton, ← h.steps]
    rfl
  outputBytes := h.outputBytes

/-- a move changes no tally -/
theorem move {w' : World σ τ} (h : Tallies start cs w) (hc : c = .right ∨ c = .left)
    (hpointer : (w'.pointer : Int) = start + displacement (cs ++ [c])) (hcells : ∀ i, w'.tape.read i = w.tape.read i)
    (hsteps : w'.steps = w.steps + 1) (hout : w'.outputBytes = w.outputBytes) : Tallies start (cs ++ [c]) w' where
  pointer := hpointer
  cells := by
    intro i
    rw [hcells, tally_concat_move start cs i hc]
    exact h.cells i
  steps := by rw [hsteps, h.steps, List.length_append, List.length_singleton]
  outputBytes := hout.trans h.outputBytes

/-- a command that leads to the left of cell zero is a move to the left from cell zero -/
theorem underflow (h : Tallies start cs w) (hbelow : (start : Int) + displacement (cs ++ [c]) < 0) :
    c = .left ∧ w.pointer = 0 := by
  have hpointer := h.pointer
  rw [displacement_concat] at hbelow
  by_cases hleft : c = .left
  · subst hleft
    simp at hbelow
    exact ⟨rfl, by omega⟩
  · rw [if_neg hleft] at hbelow
    split at hbelow <;> omega

variable [ByteSource σ] [ByteSink τ]

/-- a command that does not lead to the left of cell zero is carried out, and counted in -/
theorem effect (h : Tallies start cs w) (hw : w.Fits config) (hfree : config.Unbounded)
    (hc : c = .right ∨ c = .left ∨ c = .increment ∨ c = .decrement)
    (hstays : 0 ≤ (start : Int) + displacement (cs ++ [c])) :
    ∃ w', Effect config i c w none w' ∧ Tallies start (cs ++ [c]) w' := by
  have hpointer := h.pointer
  rw [displacement_concat] at hstays
  rcases hc with rfl | rfl | rfl | rfl
  · have hnext : ((w.pointer + 1 : Nat) : Int) = start + displacement (cs ++ [.right]) := by
      rw [displacement_concat]
      simp
      omega
    rcases Nat.lt_or_eq_of_le (Nat.succ_le_of_lt hw.pointer_lt) with hlt | hend
    · exact ⟨_, .right hlt, h.move (.inl rfl) hnext (fun _ => rfl) rfl rfl⟩
    · exact ⟨_, .rightGrow hend hfree.allowGrowth, h.move (.inl rfl) hnext (fun i => Tape.read_grow w.tape _ i) rfl rfl⟩
  · obtain ⟨k, hk⟩ : ∃ k, w.pointer = k + 1 := by
      refine Nat.exists_eq_add_one.2 ?_
      simp at hstays
      omega
    have hnext : (k : Int) = start + displacement (cs ++ [.left]) := by
      rw [displacement_concat]
      simp
      omega
    exact ⟨_, .left hk, h.move (.inr rfl) hnext (fun _ => rfl) rfl rfl⟩
  · exact ⟨_, .increment (.inr hfree.wrappingCells), h.put hw.pointer_lt (by simp [displacement_concat])
      (tally_concat_increment start cs) (Machine.toNat_add_one w.cell)⟩
  · exact ⟨_, .decrement (.inr hfree.wrappingCells), h.put hw.pointer_lt (by simp [displacement_concat])
      (tally_concat_decrement start cs) (Machine.toNat_sub_one w.cell)⟩

end Tallies

end World

end Steps

/-! ## Runs -/

section Runs

variable {σ τ : Type} [ByteSource σ] [ByteSink τ] {p q : Program} {config : Config} {k : Nat} (source : σ) (sink : τ)

namespace Machine

/-- every command is dispatched while no position is negative -/
theorem dispatches_straight (hp : p.WellFormed) (hstraight : StraightLine p.commands.toList)
    (hfree : config.Unbounded) (hk : k ≤ p.length)
    (hstays : ∀ n ≤ k, 0 ≤ position config.startOffset p.commands.toList n) :
    (place p config 0 (.initial config source sink)).Dispatches k ∧ ∃ w : World σ τ,
      (place p config 0 (.initial config source sink)).after k = place p config k w ∧ w.Fits config ∧
        w.Tallies config.startOffset (p.commands.toList.take k) := by
  induction k with
  | zero =>
    exact ⟨fun n hn => absurd hn (Nat.not_lt_zero n), _, rfl, World.fits_initial .., World.tallies_initial ..⟩
  | succ k ih =>
    obtain ⟨hdispatches, w, hafter, hw, htallies⟩ :=
      ih (Nat.le_of_succ_le hk) fun n hn => hstays n (Nat.le_succ_of_le hn)
    obtain ⟨c, hc⟩ : ∃ c, p.commands[k]? = some c := ⟨_, Array.getElem?_eq_getElem hk⟩
    have hlist : p.commands.toList[k]? = some c := by rw [Array.getElem?_toList, hc]
    have hnext := take_succ_of_getElem? hlist
    have hposition := hstays (k + 1) (Nat.le_refl _)
    rw [position, hnext] at hposition
    obtain ⟨w', he, htallies'⟩ := htallies.effect (i := k) hw hfree
      (hstraight c (List.mem_of_getElem? hlist)) hposition
    have hmove : Moves p config k w none (k + 1) w' := .plain (World.allowed_of_unlimited hfree.maxSteps w) hc he
    have hstep := step_of_moves hp hw hmove
    refine ⟨dispatches_succ_iff.2 ⟨hdispatches, ?_, ?_⟩, w', ?_, hmove.fits hw, hnext ▸ htallies'⟩
    · rw [hafter, finished_place, decide_eq_false_iff_not]
      omega
    · rw [hafter, hstep]
    · rw [after, hafter, hstep]

/-- a program whose positions are all on the tape is finished after its last command -/
theorem ends_straight (hp : p.WellFormed) (hstraight : StraightLine p.commands.toList)
    (hfree : config.Unbounded) (hstays : StaysOnTape config.startOffset p.commands.toList) :
    (place p config 0 (.initial config source sink)).Ends p.length .finished ∧ ∃ w : World σ τ,
      (place p config 0 (.initial config source sink)).after p.length = place p config p.length w ∧
        w.Tallies config.startOffset p.commands.toList := by
  obtain ⟨hdispatches, w, hafter, -, htallies⟩ :=
    dispatches_straight source sink hp hstraight hfree (Nat.le_refl p.length) fun n _ => hstays n
  refine ⟨.finished hdispatches ?_, w, hafter, ?_⟩
  · rw [hafter, finished_place, decide_eq_true_eq]
  · rwa [Program.length, ← Array.length_toList, List.take_length] at htallies

/-- a program stops at the command that leads to the left of cell zero, and nothing but the count is changed by it -/
theorem underflows_straight (hp : p.WellFormed) (hstraight : StraightLine p.commands.toList)
    (hfree : config.Unbounded) {ip : Nat}
    (hip : IsLeast {k | position config.startOffset p.commands.toList k < 0} (ip + 1)) :
    (place p config 0 (.initial config source sink)).Ends (ip + 1) (.stopped (.error ⟨.tapeUnderflow, ip, 0⟩)) ∧
      ∃ w : World σ τ, (place p config 0 (.initial config source sink)).after ip = place p config ip w ∧
        (place p config 0 (.initial config source sink)).after (ip + 1) = place p config ip w.tick ∧
        w.pointer = 0 ∧ w.steps = ip ∧ w.outputBytes = 0 := by
  obtain ⟨hbelow, hleast⟩ := hip
  have hstays : ∀ n ≤ ip, 0 ≤ position config.startOffset p.commands.toList n := by
    intro n hn
    exact Int.not_lt.1 fun hneg => absurd (hleast hneg) (by omega)
  have hlt : ip < p.length := by
    refine Nat.lt_of_not_le fun hle => ?_
    have hlength : p.commands.toList.length ≤ ip := by rwa [Array.length_toList]
    have hsame := position_of_le config.startOffset hlength
    have hsame' := position_of_le config.startOffset (Nat.le_succ_of_le hlength)
    have hnonneg := hstays ip (Nat.le_refl ip)
    rw [Set.mem_ofPred_eq, hsame', ← hsame] at hbelow
    exact Int.not_lt.2 hnonneg hbelow
  obtain ⟨hdispatches, w, hafter, hw, htallies⟩ :=
    dispatches_straight source sink hp hstraight hfree (Nat.le_of_lt hlt) hstays
  obtain ⟨c, hc⟩ : ∃ c, p.commands[ip]? = some c := ⟨_, Array.getElem?_eq_getElem hlt⟩
  have hlist : p.commands.toList[ip]? = some c := by rw [Array.getElem?_toList, hc]
  rw [Set.mem_ofPred_eq, position, take_succ_of_getElem? hlist] at hbelow
  obtain ⟨rfl, hzero⟩ := htallies.underflow hbelow
  have hmove : Moves p config ip w (some (.error ⟨.tapeUnderflow, ip, 0⟩)) ip w.tick :=
    .plainStop (World.allowed_of_unlimited hfree.maxSteps w) hc (.leftEnd hzero)
  have hstep := step_of_moves hp hw hmove
  have hsteps : w.steps = ip := by
    rw [htallies.steps, List.length_take, Array.length_toList]
    exact Nat.min_eq_left (Nat.le_of_lt hlt)
  refine ⟨.stopped hdispatches ?_ ?_, w, hafter, ?_, hzero, hsteps, htallies.outputBytes⟩
  · rw [hafter, finished_place, decide_eq_false_iff_not]
    exact Nat.not_le.2 hlt
  · rw [hafter, hstep]
  · rw [after, hafter, hstep]

/-- the program that is cut before the command that fails leaves the same tape -/
theorem tape_of_cut (hp : p.WellFormed) (hq : q.WellFormed) {ip : Nat}
    (hcut : q.commands.toList = p.commands.toList.take ip) {w : World σ τ} (hw : w.Fits config)
    (hends : (place q config 0 w).Ends ip .finished) :
    ((place q config 0 w).after ip).tape = ((place p config 0 w).after ip).tape := by
  have hpart : p.Part q 0 := by
    refine ⟨[], p.commands.toList.drop ip, ?_, rfl⟩
    rw [hcut, List.nil_append, List.take_append_drop]
  have hcarries := Ends.carries (i := 0) hp hq hpart hw hends
  exact (congrArg Machine.tape (hcarries.after ip (Nat.le_refl ip))).symm

end Machine

end Runs

/-! ## Jobs -/

namespace StraightLine

variable {start k : Nat} {cs : List Command}

theorem balanced (h : StraightLine cs) : Balanced cs := by
  induction cs with
  | nil => exact .nil
  | cons c rest ih =>
    obtain ⟨hc, hrest⟩ := List.forall_mem_cons.1 h
    refine .plain ?_ (ih hrest)
    rcases hc with rfl | rfl | rfl | rfl <;> decide

theorem take (h : StraightLine cs) (k : Nat) : StraightLine (cs.take k) := fun c hc => h c (List.mem_of_mem_take hc)

end StraightLine

namespace Job

/-- the commands of a job -/
def commands : Job → List Command
  | script s => commandsOf s.chars
  | parsed p => p.commands.toList

theorem exists_program {job : Job} (hjob : job.Parsed) (h : Balanced job.commands) (config : Config) :
    ∃ p : Program, job.program config = .ok p ∧ p.WellFormed ∧ p.commands.toList = job.commands := by
  cases job with
  | script s =>
    obtain ⟨links, hlinks, hpending⟩ := balanced_iff_link.1 h
    have hparse : Program.parse s config.precomputeJumps = .ok _ :=
      Program.parse_eq_ok_iff.2 ⟨links, hlinks, hpending, rfl⟩
    exact ⟨_, hparse, Program.wellFormed_of_parse hparse, rfl⟩
  | parsed p =>
    refine ⟨_, rfl, wellFormed_of_program hjob rfl, ?_⟩
    rw [p.commands_ite_withTable]
    rfl

end Job

/-- an execution that writes no byte ends as its run does, since nothing is left to be flushed -/
theorem Session.execute_of_ends {σ τ : Type} [ByteSource σ] [ByteSink τ] {s : Session σ τ} {job : Job} {m : Machine σ τ}
    {k u : Nat} {e : Ending} (hjob : job.Parsed) (hm : s.prepare job = .ok m) (h : m.Ends k e) (hu : k ≤ u)
    (hout : (m.after k).outputBytes = 0) : s.execute u job = (.of (m.after k) e, s.after (m.after k)) := by
  have hrun := Session.run_of_ends hjob hm h hu
  have hcomplete : (m.after k).complete = (none, m.after k) := if_pos (by simp [hout])
  refine Session.execute_of_prepare hm ?_
  cases e <;> simp only [Machine.execute, hrun, hcomplete]

/-- the shortest prefix that leads to the left of cell zero has a last command -/
theorem exists_first_below {start : Nat} {cs : List Command} (h : ¬ StaysOnTape start cs) :
    ∃ ip < cs.length, IsLeast {k | position start cs k < 0} (ip + 1) := by
  classical
  have hbelow : ∃ k, position start cs k < 0 := by
    simpa only [StaysOnTape, not_forall, Int.not_le] using h
  obtain ⟨ip, hip⟩ : ∃ ip, Nat.find hbelow = ip + 1 := by
    refine Nat.exists_eq_add_one.2 (Nat.find_pos hbelow |>.2 ?_)
    simp [position, displacement]
  have hleast : IsLeast {k | position start cs k < 0} (ip + 1) := by
    rw [← hip]
    exact ⟨Nat.find_spec hbelow, fun k hk => Nat.find_min' hbelow hk⟩
  refine ⟨ip, Nat.lt_of_not_le fun hle => ?_, hleast⟩
  have hsame : position start cs (ip + 1) = position start cs ip := by
    rw [position_of_le start (Nat.le_succ_of_le hle), position_of_le start hle]
  have hneg : position start cs (ip + 1) < 0 := hleast.1
  rw [hsame] at hneg
  have hearlier : ip + 1 ≤ ip := hleast.2 hneg
  omega

/-- how a straight program ends. If no prefix leads to the left of cell zero, it is finished: every command is executed,
the pointer is at the displacement of the program, and each cell holds its tally modulo 256. Otherwise the last command
of the shortest such prefix fails, and the tape is the one of the program that is cut before it -/
structure Session.EndsStraight {σ τ : Type} [ByteSource σ] [ByteSink τ] (s : Session σ τ) (job : Job) (start : Nat)
    (cs : List Command) (m : Machine σ τ) : Prop where
  finished : StaysOnTape start cs →
    m.Ends cs.length .finished ∧ (m.after cs.length).steps = cs.length ∧
    ((m.after cs.length).pointer : Int) = start + displacement cs ∧
    (∀ i, (((m.after cs.length).tape.read i).toNat : Int) = tally start cs i % 256) ∧
    ∀ u, cs.length ≤ u → s.execute u job = (.done (m.after cs.length).info, s.after (m.after cs.length))
  underflow : ¬ StaysOnTape start cs → ∃ ip < cs.length, IsLeast {k | position start cs k < 0} (ip + 1) ∧
    m.Ends (ip + 1) (.stopped (.error ⟨.tapeUnderflow, ip, 0⟩)) ∧
    (m.after (ip + 1)).ip = ip ∧ (m.after (ip + 1)).pointer = 0 ∧ (m.after (ip + 1)).steps = ip + 1 ∧
    (∀ cut : Job, cut.Parsed → cut.commands = cs.take ip → ∃ m', s.prepare cut = .ok m' ∧ m'.Ends ip .finished ∧
      (m.after (ip + 1)).tape = (m'.after ip).tape) ∧
    ∀ u, cs.length ≤ u →
      s.execute u job = (.stopped (.error ⟨.tapeUnderflow, ip, 0⟩), s.after (m.after (ip + 1)))

namespace Session

variable {σ τ : Type} [ByteSource σ] [ByteSink τ] {s : Session σ τ} {job : Job} {p : Program}

/-- the program that is cut before the command that fails is finished, with the same tape -/
theorem exists_cut (hp : p.WellFormed) (hstraight : StraightLine p.commands.toList) (hfree : s.config.Unbounded)
    {ip : Nat} (hlt : ip < p.length)
    (hip : IsLeast {k | position s.config.startOffset p.commands.toList k < 0} (ip + 1)) {cut : Job} (hcut : cut.Parsed)
    (hcommands : cut.commands = p.commands.toList.take ip) : ∃ m', s.prepare cut = .ok m' ∧ m'.Ends ip .finished ∧
      (m'.after ip).tape =
        ((Machine.place p s.config 0 (.initial s.config s.feed.source s.sink)).after ip).tape := by
  have hstraight' : StraightLine cut.commands := hcommands ▸ hstraight.take ip
  obtain ⟨q, hprogram, hq, hqc⟩ := cut.exists_program hcut hstraight'.balanced s.config
  have hfront : q.commands.toList = p.commands.toList.take ip := hqc.trans hcommands
  have hlength : q.length = ip := by
    rw [Program.length, ← Array.length_toList, hfront, List.length_take, Array.length_toList]
    exact Nat.min_eq_left (Nat.le_of_lt hlt)
  have hstays : StaysOnTape s.config.startOffset q.commands.toList := by
    intro k
    rw [hfront, position, List.take_take]
    exact Int.not_lt.1 fun hneg => absurd (hip.2 hneg) (by omega)
  obtain ⟨hends, -⟩ := Machine.ends_straight s.feed.source s.sink hq (hqc ▸ hstraight') hfree hstays
  rw [hlength] at hends
  exact ⟨_, s.prepare_eq_place hprogram, hends, Machine.tape_of_cut hp hq hfront (World.fits_initial ..) hends⟩

theorem endsStraight (hjob : job.Parsed) (hp : p.WellFormed) (hstraight : StraightLine p.commands.toList)
    (hfree : s.config.Unbounded) (hprogram : job.program s.config = .ok p) :
    s.EndsStraight job s.config.startOffset p.commands.toList
      (.place p s.config 0 (.initial s.config s.feed.source s.sink)) := by
  have hm := s.prepare_eq_place hprogram
  have hlength : p.commands.toList.length = p.length := Array.length_toList
  constructor
  case finished =>
    intro hstays
    obtain ⟨hends, w, hafter, htallies⟩ := Machine.ends_straight s.feed.source s.sink hp hstraight hfree hstays
    rw [hlength]
    refine ⟨hends, ?_, ?_, ?_, fun u hu => execute_of_ends hjob hm hends hu (hafter ▸ htallies.outputBytes)⟩
    · rw [hafter, ← hlength]
      exact htallies.steps
    · rw [hafter]
      exact htallies.pointer
    · rw [hafter]
      exact htallies.cells
  case underflow =>
    intro hbelow
    obtain ⟨ip, hlt, hip⟩ := exists_first_below hbelow
    rw [hlength] at hlt ⊢
    obtain ⟨hends, w, hafter, hfailed, hpointer, hsteps, hout⟩ :=
      Machine.underflows_straight s.feed.source s.sink hp hstraight hfree hip
    refine ⟨ip, hlt, hip, hends, ?_, ?_, ?_, fun cut hcut hcommands => ?_, fun u hu => ?_⟩
    · rw [hfailed]
      rfl
    · rw [hfailed]
      exact hpointer
    · rw [hfailed]
      exact congrArg (· + 1) hsteps
    · obtain ⟨m', hm', hends', htape⟩ := exists_cut hp hstraight hfree hlt hip hcut hcommands
      refine ⟨m', hm', hends', ?_⟩
      rw [htape, hfailed, hafter]
      rfl
    · exact execute_of_ends hjob hm hends (Nat.le_trans hlt hu) (hfailed ▸ hout)

end Session

/-- **Straight programs in closed form.** A program of moves, increments and decrements, with cells that wrap around, a
tape that grows and no step limit, is always answered. It ends normally exactly if none of its prefixes leads to the
left of cell zero. Then every command is executed, the pointer is at the displacement of the program, and each cell
holds its tally, the increments less the decrements that were executed there, modulo 256. Otherwise the last command of
the shortest such prefix fails at cell zero, and the tape is the one of the program that is cut before it. -/
theorem straight_line_in_closed_form {σ τ : Type} [ByteSource σ] [ByteSink τ] (s : Session σ τ) (job : Job)
    (hjob : job.Parsed) (hstraight : StraightLine job.commands) (hfree : s.config.Unbounded) :
    ∃ m, s.prepare job = .ok m ∧
      (∀ u, job.commands.length ≤ u →
        ((∃ info, (s.execute u job).1 = .done info) ↔ StaysOnTape s.config.startOffset job.commands)) ∧
      s.EndsStraight job s.config.startOffset job.commands m := by
  obtain ⟨p, hprogram, hp, hcommands⟩ := job.exists_program hjob hstraight.balanced s.config
  rw [← hcommands] at hstraight ⊢
  have hends := Session.endsStraight hjob hp hstraight hfree hprogram
  refine ⟨_, s.prepare_eq_place hprogram, fun u hu => ?_, hends⟩
  by_cases hstays : StaysOnTape s.config.startOffset p.commands.toList
  · obtain ⟨-, -, -, -, hexecute⟩ := hends.finished hstays
    exact iff_of_true ⟨_, congrArg Prod.fst (hexecute u hu)⟩ hstays
  · obtain ⟨ip, -, -, -, -, -, -, -, hexecute⟩ := hends.underflow hstays
    refine iff_of_false ?_ hstays
    rintro ⟨info, hinfo⟩
    rw [hexecute u hu] at hinfo
    cases hinfo

/-- from cell one: a program that counts both cells down and one of them up again, and one that goes on to the left of
cell zero with its fourth command -/
theorem straight_line_in_closed_form_from_one : ∃ s : Session Source Sink,
    s.config.startOffset = 1 ∧ s.config.Unbounded ∧
    (∃ m, s.prepare (.script (.text "-<--x>+")) = .ok m ∧ StraightLine (commandsOf "-<--x>+".toList) ∧
      StaysOnTape 1 (commandsOf "-<--x>+".toList) ∧ m.Ends 6 .finished ∧ (m.after 6).pointer = (1 : Int) ∧
      ((m.after 6).tape.read 0).toNat = (254 : Int) ∧ ((m.after 6).tape.read 1).toNat = (0 : Int)) ∧
    ∃ m, s.prepare (.script (.text "-<-<+")) = .ok m ∧ StraightLine (commandsOf "-<-<+".toList) ∧
      ¬ StaysOnTape 1 (commandsOf "-<-<+".toList) ∧ m.Ends 4 (.stopped (.error ⟨.tapeUnderflow, 3, 0⟩)) ∧
      (m.after 4).pointer = 0 ∧ (m.after 4).steps = 4 ∧
      (s.execute 5 (.script (.text "-<-<+"))).1 = .stopped (.error ⟨.tapeUnderflow, 3, 0⟩) := by
  let s : Session Source Sink :=
    .start { tapeLength := 2, startOffset := 1 } (.replayed (.buffer [])) (.buffer #[])
  have hfree : s.config.Unbounded := ⟨rfl, rfl, rfl⟩
  have hfirst : StraightLine (commandsOf "-<--x>+".toList) := by decide
  have hstays : StaysOnTape 1 (commandsOf "-<--x>+".toList) := by decide
  have hsecond : StraightLine (commandsOf "-<-<+".toList) := by decide
  have hbelow : ¬ StaysOnTape 1 (commandsOf "-<-<+".toList) := by decide
  refine ⟨s, rfl, hfree, ?_, ?_⟩
  · obtain ⟨m, hm, -, hends⟩ := straight_line_in_closed_form s (.script (.text "-<--x>+")) trivial hfirst hfree
    obtain ⟨hfinished, -, hpointer, hcells, -⟩ := hends.finished hstays
    exact ⟨m, hm, hfirst, hstays, hfinished, hpointer, hcells 0, hcells 1⟩
  · obtain ⟨m, hm, -, hends⟩ := straight_line_in_closed_form s (.script (.text "-<-<+")) trivial hsecond hfree
    obtain ⟨ip, -, hip, hstopped, -, hpointer, hsteps, -, hexecute⟩ := hends.underflow hbelow
    have hfourth : IsLeast {k | position 1 (commandsOf "-<-<+".toList) k < 0} 4 := by
      refine ⟨by decide, fun k hk => Nat.le_of_not_lt fun hlt => ?_⟩
      have hneg : position 1 (commandsOf "-<-<+".toList) k < 0 := hk
      revert hneg
      interval_cases k <;> decide
    obtain rfl : ip = 3 := Nat.succ.inj (hip.unique hfourth)
    exact ⟨m, hm, hsecond, hbelow, hstopped, hpointer, hsteps, congrArg Prod.fst (hexecute 5 (Nat.le_refl 5))⟩

end Brainfuck
