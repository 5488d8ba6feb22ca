/-
A program as a part of a longer one.

- `Stop.shift`, `Ending.shift`: every index that an error names, counted from so many commands before.
- `Machine.inside m p n`: the machine with its program as the part of `p` that begins at `n`.
- `Effect.shift`, `Moves.inside`: a part moves as it does on its own, at indices that are shifted. Brackets have their
  partners in the part (`Program.Part.pair`), so no jump leaves it.
- `Machine.Carries p n m m' k`: for `k` steps a longer program goes through the states of its part. It does while the
  part is not finished, and for ever if nothing stands behind the part (`Machine.carries_place`).
- `Carries.ends`, `Carries.not_ends`, `Carries.ends_iff`: how a longer program ends whose part stops, goes on for ever,
  or is the last one.
-/
import Brainfuck.Proofs.Running

namespace Brainfuck

open Brainfuck.Bracket

/-! ## Shifted indices -/

/-- the error at an index counted from `n` commands before -/
def ExecutionError.shift (n : Nat) (e : ExecutionError) : ExecutionError := { e with ip := n + e.ip }

def Stop.shift (n : Nat) : Stop → Stop
  | .error e => .error (e.shift n)
  | s => s

def Ending.shift (n : Nat) : Ending → Ending
  | .stopped s => .stopped (s.shift n)
  | e => e

@[simp] theorem Stop.shift_zero (s : Stop) : s.shift 0 = s := by
  cases s with
  | error e => simp only [Stop.shift, ExecutionError.shift, Nat.zero_add]
  | fault | tape | noCommand => rfl

theorem shift_streamStop (n : Nat) (stream : String) (f : Fault) (i pointer : Nat) :
    (streamStop stream f i pointer).shift n = streamStop stream f (n + i) pointer := by
  unfold streamStop
  split <;> rfl

variable {σ τ : Type} {p q : Program} {c : Config} {i j k l n : Nat} {w w' : World σ τ} {stop : Option Stop}

/-- the machine with its program as the part of `p` that begins at `n` -/
def Machine.inside (m : Machine σ τ) (p : Program) (n : Nat) : Machine σ τ := { m with program := p, ip := n + m.ip }

/-- the machine at the first command of another program -/
def Machine.restart (m : Machine σ τ) (p : Program) : Machine σ τ := { m with program := p, ip := 0 }

/-- the commands of `q` stand in `p` from `n` on -/
def Program.Part (p q : Program) (n : Nat) : Prop := Stands p.commands.toList n q.commands.toList

namespace Program.Part

theorem command (h : p.Part q n) {command : Command} (hc : q.commands[i]? = some command) :
    p.commands[n + i]? = some command := by
  obtain ⟨pre, post, hp, rfl⟩ := h
  rw [← Array.getElem?_toList] at hc ⊢
  have hi := (List.getElem?_eq_some_iff.1 hc).1
  rw [hp, List.append_assoc, List.getElem?_append_right (Nat.le_add_right _ _), Nat.add_sub_cancel_left,
    List.getElem?_append_left hi]
  exact hc

theorem pair (h : p.Part q n) (hpair : Pair q.commands.toList i j) : Pair p.commands.toList (n + i) (n + j) := by
  obtain ⟨pre, post, hp, rfl⟩ := h
  rw [hp]
  exact hpair.within pre post

theorem le_length (h : p.Part q n) : n + q.length ≤ p.length := by
  obtain ⟨pre, post, hp, rfl⟩ := h
  have hlength := congrArg List.length hp
  simp only [Array.length_toList, List.length_append] at hlength
  simp only [Program.length]
  omega

end Program.Part

/-! ## One step -/

variable [ByteSource σ] [ByteSink τ]

/-- a command does the same at another index, which its errors name -/
theorem Effect.shift {command : Command} (n : Nat) (h : Effect c i command w stop w') :
    Effect c (n + i) command w (stop.map (Stop.shift n)) w' := by
  cases h with
  | right hlt => exact .right hlt
  | rightGrow hend hg => exact .rightGrow hend hg
  | rightEnd hend hg => exact .rightEnd hend hg
  | left hk => exact .left hk
  | leftEnd hk => exact .leftEnd hk
  | increment hok => exact .increment hok
  | incrementEnd hfull hwrap => exact .incrementEnd hfull hwrap
  | decrement hok => exact .decrement hok
  | decrementEnd hzero hwrap => exact .decrementEnd hzero hwrap
  | output hwrite hno => exact .output hwrite hno
  | outputFlush hwrite hyes hf => exact .outputFlush hwrite hyes hf
  | input hread => exact .input hread
  | inputZero hread hpol => exact .inputZero hread hpol
  | inputUnchanged hread hpol => exact .inputUnchanged hread hpol
  | inputValue hread hpol => exact .inputValue hread hpol
  | inputEnd hread hpol => exact .inputEnd hread hpol
  | writeFault hwrite =>
    rw [Option.map_some, shift_streamStop]
    exact .writeFault hwrite
  | flushFault hwrite hyes hf =>
    rw [Option.map_some, shift_streamStop]
    exact .flushFault hwrite hyes hf
  | readFault hread =>
    rw [Option.map_some, shift_streamStop]
    exact .readFault hread

/-- a part moves as it does on its own; it is the last one if no command is left when it has none -/
theorem Moves.inside (hpart : p.Part q n) (hend : i < q.length ∨ p.length = n + q.length)
    (h : Moves q c i w stop j w') : Moves p c (n + i) w (stop.map (Stop.shift n)) (n + j) w' := by
  cases h with
  | limit hmax hle => exact .limit hmax hle
  | missing hallowed hc =>
    have hi : q.length ≤ i := Array.getElem?_eq_none_iff.1 hc
    have hlast : p.length ≤ n + i := by omega
    exact .missing hallowed (Array.getElem?_eq_none_iff.2 hlast)
  | plain hallowed hc he => exact .plain hallowed (hpart.command hc) (he.shift n)
  | plainStop hallowed hc he => exact .plainStop hallowed (hpart.command hc) (he.shift n)
  | skip hallowed hpair h0 => exact .skip hallowed (hpart.pair hpair) h0
  | enter hallowed hpair h0 => exact .enter hallowed (hpart.pair hpair) h0
  | leave hallowed hpair h0 => exact .leave hallowed (hpart.pair hpair) h0
  | again hallowed hpair h0 => exact .again hallowed (hpart.pair hpair) h0

namespace Machine

theorem step_inside (hp : p.WellFormed) (hq : q.WellFormed) (hpart : p.Part q n) (hw : w.Fits c)
    (hend : i < q.length ∨ p.length = n + q.length) :
    ∃ stop j w', w'.Fits c ∧ (place q c i w).step = (stop, place q c j w') ∧
      (place p c (n + i) w).step = (stop.map (Stop.shift n), place p c (n + j) w') := by
  obtain ⟨stop, j, w', hmove⟩ := exists_moves hq i hw
  exact ⟨stop, j, w', hmove.fits hw, step_of_moves hq hw hmove, step_of_moves hp hw (hmove.inside hpart hend)⟩

/-! ## Runs -/

/-- for `k` steps `m'` does with the longer program `p` what `m` does with the part of it that begins at `n`; while `m`
is not finished `m'` is not either, and they are finished together if the part is the last one -/
structure Carries (p : Program) (n : Nat) (m m' : Machine σ τ) (k : Nat) : Prop where
  after : ∀ l ≤ k, m'.after l = (m.after l).inside p n
  finished : ∀ l ≤ k, (m.after l).finished = false ∨ p.length = n + m.program.length →
    (m'.after l).finished = (m.after l).finished
  stops : ∀ l < k, (m'.after l).step.1 = (m.after l).step.1.map (Stop.shift n)

omit [ByteSource σ] [ByteSink τ] in
theorem finished_inside (hpart : p.Part q n) (hend : (place q c j w).finished = false ∨ p.length = n + q.length) :
    (place p c (n + j) w).finished = (place q c j w).finished := by
  have hle := hpart.le_length
  rw [finished_place, decide_eq_false_iff_not] at hend
  rw [finished_place, finished_place, decide_eq_decide]
  omega

/-- while the part has a command left, or if it is the last one, the longer program carries it -/
theorem carries_place (hp : p.WellFormed) (hq : q.WellFormed) (hpart : p.Part q n) (hw : w.Fits c)
    (hend : ∀ l < k, ((place q c i w).after l).finished = false ∨ p.length = n + q.length) :
    Carries p n (place q c i w) (place p c (n + i) w) k := by
  have hstep : ∀ (j : Nat) (w₁ : World σ τ), w₁.Fits c →
      (place q c j w₁).finished = false ∨ p.length = n + q.length → ∃ stop j' w', w'.Fits c ∧
        (place q c j w₁).step = (stop, place q c j' w') ∧
        (place p c (n + j) w₁).step = (stop.map (Stop.shift n), place p c (n + j') w') := by
    intro j w₁ hw₁ hlast
    rw [finished_place, decide_eq_false_iff_not, Nat.not_le] at hlast
    exact step_inside hp hq hpart hw₁ hlast
  have hplaces : ∀ l ≤ k, ∃ j w', w'.Fits c ∧ (place q c i w).after l = place q c j w' ∧
      (place p c (n + i) w).after l = place p c (n + j) w' := by
    intro l
    induction l with
    | zero => exact fun _ => ⟨i, w, hw, rfl, rfl⟩
    | succ l ih =>
      intro hl
      obtain ⟨j, w₁, hw₁, h, h'⟩ := ih (Nat.le_of_succ_le hl)
      obtain ⟨stop, j', w₂, hw₂, hs, hs'⟩ := hstep j w₁ hw₁ (h ▸ hend l hl)
      refine ⟨j', w₂, hw₂, ?_, ?_⟩
      · rw [after, h, hs]
      · rw [after, h', hs']
  constructor
  · intro l hl
    obtain ⟨j, w', -, h, h'⟩ := hplaces l hl
    rw [h, h']
    rfl
  · intro l hl
    obtain ⟨j, w', -, h, h'⟩ := hplaces l hl
    rw [h, h']
    exact finished_inside hpart
  · intro l hl
    obtain ⟨j, w', hw', h, h'⟩ := hplaces l (Nat.le_of_lt hl)
    obtain ⟨stop, _, _, -, hs, hs'⟩ := hstep j w' hw' (h ▸ hend l hl)
    rw [h, h', hs, hs']

/-- a longer program carries a part to its end, and no further -/
theorem Ends.carries {e : Ending} (hp : p.WellFormed) (hq : q.WellFormed) (hpart : p.Part q n) (hw : w.Fits c)
    (h : (place q c i w).Ends k e) : Carries p n (place q c i w) (place p c (n + i) w) k :=
  carries_place hp hq hpart hw fun _ hl => .inl (h.unfinished hl)

theorem Dispatches.carries (hp : p.WellFormed) (hq : q.WellFormed) (hpart : p.Part q n) (hw : w.Fits c)
    (h : (place q c i w).Dispatches k) : Carries p n (place q c i w) (place p c (n + i) w) k :=
  carries_place hp hq hpart hw fun l hl => .inl (h l hl).1

namespace Carries

variable {m m' : Machine σ τ} {e' : Ending}

theorem mono (h : Carries p n m m' k) (hl : l ≤ k) : Carries p n m m' l where
  after := fun l' hl' => h.after l' (Nat.le_trans hl' hl)
  finished := fun l' hl' => h.finished l' (Nat.le_trans hl' hl)
  stops := fun l' hl' => h.stops l' (Nat.lt_of_lt_of_le hl' hl)

theorem dispatches (h : Carries p n m m' k) (hk : m.Dispatches k) : m'.Dispatches k := by
  intro l hl
  obtain ⟨hgo, hnone⟩ := hk l hl
  constructor
  · exact (h.finished l (Nat.le_of_lt hl) (.inl hgo)).trans hgo
  · rw [h.stops l hl, hnone]
    rfl

/-- a part that stops stops the longer program -/
theorem ends {s : Stop} (h : Carries p n m m' k) (hk : m.Ends k (.stopped s)) : m'.Ends k (.stopped (s.shift n)) := by
  cases hk with
  | @stopped k _ hdispatches hgo hs =>
    have hbefore : Carries p n m m' k := h.mono (Nat.le_succ k)
    refine .stopped (hbefore.dispatches hdispatches) ?_ ?_
    · exact (hbefore.finished k (Nat.le_refl k) (.inl hgo)).trans hgo
    · rw [h.stops k (Nat.lt_succ_self k), hs]
      rfl

/-- a part that goes on for ever does so in the longer program -/
theorem not_ends (h : ∀ k, m.Dispatches k → Carries p n m m' k) (hm : ∀ k e, ¬ m.Ends k e) (k : Nat) (e : Ending) :
    ¬ m'.Ends k e := by
  intro hends
  rcases m.ends_or_dispatches k with ⟨l, -, e', he'⟩ | ⟨hk, hgo⟩
  · exact hm l e' he'
  · have hcarries := h k hk
    have hgo' := (hcarries.finished k (Nat.le_refl k) (.inl hgo)).trans hgo
    exact absurd (hends.lt_of_dispatches (hcarries.dispatches hk) hgo') (Nat.lt_irrefl k)

/-- with the last part ends the longer program, and with nothing else -/
theorem ends_iff (hlast : p.length = n + m.program.length) (h : ∀ k, Carries p n m m' k) (k : Nat) :
    m'.Ends k e' ↔ ∃ e, m.Ends k e ∧ e' = e.shift n := by
  have hfinished : ∀ l, (m'.after l).finished = (m.after l).finished := fun l =>
    (h l).finished l (Nat.le_refl l) (.inr hlast)
  have hstops : ∀ l, (m'.after l).step.1 = (m.after l).step.1.map (Stop.shift n) := fun l =>
    (h (l + 1)).stops l (Nat.lt_succ_self l)
  have hdispatches : ∀ l, m'.Dispatches l ↔ m.Dispatches l := by
    intro l
    refine forall₂_congr fun l' _ => ?_
    rw [hfinished, hstops, Option.map_eq_none_iff]
  constructor
  · intro hends
    cases hends with
    | finished hk hend => exact ⟨_, .finished ((hdispatches k).1 hk) ((hfinished k).symm.trans hend), rfl⟩
    | @stopped k s hk hgo hs =>
      rw [hstops, Option.map_eq_some_iff] at hs
      obtain ⟨s', hs', rfl⟩ := hs
      exact ⟨_, .stopped ((hdispatches k).1 hk) ((hfinished k).symm.trans hgo) hs', rfl⟩
  · rintro ⟨e, hends, rfl⟩
    cases hends with
    | finished hk hend => exact .finished ((hdispatches k).2 hk) ((hfinished k).trans hend)
    | @stopped k _ hk hgo hs => exact (h (k + 1)).ends (.stopped hk hgo hs)

end Carries

end Machine

end Brainfuck
