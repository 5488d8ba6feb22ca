/-
Programs as trees, and what a tree does.

- `Tree`: a balanced sequence with its loops as subtrees. Every balanced sequence is read in one way
  (`Tree.existsUnique`).
- `Runs config segment w o`: the big-step semantics. A command that is no bracket costs one step; so does each test of
  a cell, the one at the loop start, which is made once, and the one at the loop end, which is made after each round.
  Whatever stops a part stops the whole, at the index where it happened.
-/
import Brainfuck.Proofs.Balance
import Brainfuck.Proofs.Effect

namespace Brainfuck

open Brainfuck.Bracket

/-- a balanced sequence, read as a tree -/
inductive Tree where
  | done
  | command (c : Command) (plain : c.IsPlain) (rest : Tree)
  | loop (body rest : Tree)

namespace Tree

/-- the sequence that the tree reads -/
def commands : Tree → List Command
  | done => []
  | command c _ rest => c :: rest.commands
  | loop body rest => .loopStart :: (body.commands ++ .loopEnd :: rest.commands)

/-- how many commands the tree has, brackets counted -/
def size (t : Tree) : Nat := t.commands.length

@[simp] theorem size_command (c : Command) (hc : c.IsPlain) (rest : Tree) :
    (command c hc rest).size = rest.size + 1 := rfl

@[simp] theorem size_loop (body rest : Tree) : (loop body rest).size = body.size + rest.size + 2 := by
  simp [size, commands]
  omega

theorem balanced (t : Tree) : Balanced t.commands := by
  induction t with
  | done => exact .nil
  | command c hc rest ih => exact .plain hc ih
  | loop body rest ihb ihr => exact .loop ihb ihr

theorem exists_of_balanced {commands : List Command} (h : Balanced commands) : ∃ t : Tree, t.commands = commands := by
  induction h with
  | nil => exact ⟨.done, rfl⟩
  | plain hc _ ih =>
    obtain ⟨t, rfl⟩ := ih
    exact ⟨.command _ hc t, rfl⟩
  | loop _ _ ihb ihr =>
    obtain ⟨body, rfl⟩ := ihb
    obtain ⟨rest, rfl⟩ := ihr
    exact ⟨.loop body rest, rfl⟩

/-- the first loop of a sequence ends in one place -/
theorem append_loopEnd_inj {a b x y : List Command} (ha : Balanced a) (hb : Balanced b)
    (h : a ++ .loopEnd :: x = b ++ .loopEnd :: y) : a = b ∧ x = y := by
  have hpair : Pair (.loopStart :: (a ++ .loopEnd :: x)) 0 (0 + a.length + 1) := .of_stands ha .self
  have hpair' : Pair (.loopStart :: (a ++ .loopEnd :: x)) 0 (0 + b.length + 1) := by
    rw [h]
    exact .of_stands hb .self
  have hlen : a.length = b.length := by
    have := hpair.stop_unique hpair'
    omega
  obtain ⟨hab, hxy⟩ := List.append_inj h hlen
  exact ⟨hab, List.tail_eq_of_cons_eq hxy⟩

theorem commands_injective {t t' : Tree} (h : t.commands = t'.commands) : t = t' := by
  induction t generalizing t' with
  | done =>
    cases t' with
    | done => rfl
    | command c hc rest => simp [commands] at h
    | loop body rest => simp [commands] at h
  | command c hc rest ih =>
    cases t' with
    | done => simp [commands] at h
    | command c' hc' rest' =>
      simp only [commands, List.cons.injEq] at h
      obtain ⟨rfl, hrest⟩ := h
      rw [ih hrest]
    | loop body rest =>
      simp only [commands, List.cons.injEq] at h
      exact absurd h.1 hc.1
  | loop body rest ihb ihr =>
    cases t' with
    | done => simp [commands] at h
    | command c hc rest' =>
      simp only [commands, List.cons.injEq] at h
      exact absurd h.1.symm hc.1
    | loop body' rest' =>
      simp only [commands, List.cons.injEq, true_and] at h
      obtain ⟨hb, hr⟩ := append_loopEnd_inj body.balanced body'.balanced h
      rw [ihb hb, ihr hr]

/-- a balanced sequence is read in exactly one way -/
theorem existsUnique {commands : List Command} (h : Balanced commands) : ∃! t : Tree, t.commands = commands := by
  obtain ⟨t, rfl⟩ := exists_of_balanced h
  exact ⟨t, rfl, fun _ ht => commands_injective ht⟩

end Tree

/-! ## Big steps -/

/-- a part of a program, with the index where it stands -/
inductive Segment where
  /-- the commands of a tree -/
  | tree (i : Nat) (t : Tree)
  /-- the rounds of a loop whose start has been passed; `i` is the index of the loop start -/
  | rounds (i : Nat) (body : Tree)

/-- how a tree ends -/
inductive Outcome (σ τ : Type) where
  | ended (w : World σ τ)
  /-- something stopped the command at the index -/
  | stopped (s : Stop) (i : Nat) (w : World σ τ)

variable {σ τ : Type} [ByteSource σ] [ByteSink τ]

/-- the structured meaning of a segment -/
inductive Runs (config : Config) : Segment → World σ τ → Outcome σ τ → Prop where
  | done {i : Nat} {w : World σ τ} : Runs config (.tree i .done) w (.ended w)
  | command {i : Nat} {c : Command} {hc : c.IsPlain} {rest : Tree} {w w' : World σ τ} {o : Outcome σ τ} :
      Effect config i c w none w' → Runs config (.tree (i + 1) rest) w' o →
      Runs config (.tree i (.command c hc rest)) w o
  | commandStop {i : Nat} {c : Command} {hc : c.IsPlain} {rest : Tree} {w w' : World σ τ} {s : Stop} :
      Effect config i c w (some s) w' → Runs config (.tree i (.command c hc rest)) w (.stopped s i w')
  | skip {i : Nat} {body rest : Tree} {w : World σ τ} {o : Outcome σ τ} :
      w.cell = 0 → Runs config (.tree (i + body.size + 2) rest) w.tick o →
      Runs config (.tree i (.loop body rest)) w o
  | enter {i : Nat} {body rest : Tree} {w w' : World σ τ} {o : Outcome σ τ} :
      w.cell ≠ 0 → Runs config (.rounds i body) w.tick (.ended w') →
      Runs config (.tree (i + body.size + 2) rest) w' o → Runs config (.tree i (.loop body rest)) w o
  | enterStop {i j : Nat} {body rest : Tree} {w w' : World σ τ} {s : Stop} :
      w.cell ≠ 0 → Runs config (.rounds i body) w.tick (.stopped s j w') →
      Runs config (.tree i (.loop body rest)) w (.stopped s j w')
  | leave {i : Nat} {body : Tree} {w w' : World σ τ} :
      Runs config (.tree (i + 1) body) w (.ended w') → w'.cell = 0 → Runs config (.rounds i body) w (.ended w'.tick)
  | again {i : Nat} {body : Tree} {w w' : World σ τ} {o : Outcome σ τ} :
      Runs config (.tree (i + 1) body) w (.ended w') → w'.cell ≠ 0 → Runs config (.rounds i body) w'.tick o →
      Runs config (.rounds i body) w o
  | bodyStop {i j : Nat} {body : Tree} {w w' : World σ τ} {s : Stop} :
      Runs config (.tree (i + 1) body) w (.stopped s j w') → Runs config (.rounds i body) w (.stopped s j w')

namespace Segment

/-- where the segment begins -/
def start : Segment → Nat
  | tree i _ => i
  | rounds i _ => i + 1

/-- the index behind the segment -/
def stop : Segment → Nat
  | tree i t => i + t.size
  | rounds i body => i + body.size + 2

/-- the segment is a part of the program -/
def StandsIn (p : Program) : Segment → Prop
  | tree i t => Stands p.commands.toList i t.commands
  | rounds i body => Stands p.commands.toList i (.loopStart :: (body.commands ++ [.loopEnd]))

end Segment

end Brainfuck
