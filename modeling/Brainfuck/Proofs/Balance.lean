/-
Balanced sequences, and which brackets of a sequence belong together.

`Bracket.Pair commands i j`: a loop start at `i`, a loop end at `j`, and between them a balanced sequence. Counting the
brackets of prefixes and suffixes (`count_prefix_le`, `count_suffix_le`) gives that pairs are nested or disjoint
(`Pair.nested_or_disjoint`), so that a bracket is in one pair at most (`Pair.stop_unique`, `Pair.start_unique`). In a
balanced sequence every bracket is in a pair (`Balanced.exists_partner`).
-/
import Mathlib.Tactic
import Brainfuck.Bracket

namespace Brainfuck

/-! ## Counting brackets -/

namespace Balanced

theorem append {a b : List Command} (ha : Balanced a) (hb : Balanced b) : Balanced (a ++ b) := by
  induction ha with
  | nil => exact hb
  | plain hc _ ih => exact .plain hc ih
  | loop hbody _ _ ih => simpa using Balanced.loop hbody ih

/-- as many loop starts as loop ends -/
theorem count_eq {a : List Command} (h : Balanced a) : a.count .loopStart = a.count .loopEnd := by
  induction h with
  | nil => rfl
  | plain hc _ ih => rw [List.count_cons_of_ne hc.1, List.count_cons_of_ne hc.2, ih]
  | loop _ _ ihb ihr => simp [ihb, ihr]; omega

/-- no prefix has more loop ends than loop starts -/
theorem count_prefix_le {p s : List Command} (h : Balanced (p ++ s)) : p.count .loopEnd ≤ p.count .loopStart := by
  generalize hw : p ++ s = w at h
  induction h generalizing p s with
  | nil => simp [(List.append_eq_nil_iff.1 hw).1]
  | @plain c rest hc _ ih =>
    rcases p with _ | ⟨d, p⟩
    · simp
    · simp only [List.cons_append, List.cons.injEq] at hw
      obtain ⟨rfl, hw⟩ := hw
      rw [List.count_cons_of_ne hc.1, List.count_cons_of_ne hc.2]
      exact ih hw
  | @loop body rest hbody _ ihb ihr =>
    rcases p with _ | ⟨d, p⟩
    · simp
    simp only [List.cons_append, List.cons.injEq] at hw
    obtain ⟨rfl, hw⟩ := hw
    -- the prefix ends inside the body, or behind the loop end
    rcases List.append_eq_append_iff.1 hw with ⟨x, rfl, -⟩ | ⟨x, rfl, hx⟩
    · have := ihb rfl
      simp; omega
    · rcases x with _ | ⟨e, x⟩
      · have := hbody.count_eq
        simp; omega
      · simp only [List.cons_append, List.cons.injEq] at hx
        obtain ⟨rfl, hx⟩ := hx
        have := ihr hx.symm
        have := hbody.count_eq
        simp; omega

/-- no suffix has more loop starts than loop ends -/
theorem count_suffix_le {p s : List Command} (h : Balanced (p ++ s)) : s.count .loopStart ≤ s.count .loopEnd := by
  have hp := h.count_prefix_le
  have ht := h.count_eq
  simp only [List.count_append] at ht
  omega

end Balanced

/-! ## Pairs -/

namespace Bracket

/-- the loop start at `i` and the loop end at `j` are each other's partner -/
structure Pair (commands : List Command) (i j : Nat) : Prop where
  lt : i < j
  start : commands[i]? = some .loopStart
  stop : commands[j]? = some .loopEnd
  between : Balanced ((commands.take j).drop (i + 1))

/-- the commands from `i` to just before `j` -/
def slice (commands : List Command) (i j : Nat) : List Command := (commands.take j).drop i

theorem slice_append {commands : List Command} {i j k : Nat} (hij : i ≤ j) (hjk : j ≤ k) :
    slice commands i j ++ slice commands j k = slice commands i k := by
  have hj : commands.take j = (commands.take k).take j := by rw [List.take_take, Nat.min_eq_left hjk]
  have hd : slice commands j k = ((commands.take k).drop i).drop (j - i) := by
    rw [slice, List.drop_drop, Nat.add_sub_cancel' hij]
  rw [hd, slice, hj, List.drop_take, slice, List.take_append_drop]

theorem slice_succ {commands : List Command} {i : Nat} {c : Command} (h : commands[i]? = some c) :
    slice commands i (i + 1) = [c] := by
  have hi : i < commands.length := (List.getElem?_eq_some_iff.1 h).1
  rw [slice, List.take_add_one, h, List.drop_left' (List.length_take_of_le (Nat.le_of_lt hi))]
  rfl

/-- the sequence `part` stands in `commands` from the index `i` on -/
def Stands (commands : List Command) (i : Nat) (part : List Command) : Prop :=
  ∃ pre post, commands = pre ++ part ++ post ∧ pre.length = i

namespace Stands

variable {commands part a b : List Command} {i : Nat} {c : Command}

theorem self : Stands commands 0 commands := ⟨[], [], by simp, rfl⟩

theorem head (h : Stands commands i (c :: part)) : commands[i]? = some c := by
  obtain ⟨pre, post, rfl, rfl⟩ := h
  simp

theorem tail (h : Stands commands i (c :: part)) : Stands commands (i + 1) part := by
  obtain ⟨pre, post, rfl, rfl⟩ := h
  exact ⟨pre ++ [c], post, by simp, by simp⟩

theorem right (h : Stands commands i (a ++ b)) : Stands commands (i + a.length) b := by
  obtain ⟨pre, post, rfl, rfl⟩ := h
  exact ⟨pre ++ a, post, by simp, by simp⟩

theorem left (h : Stands commands i (a ++ b)) : Stands commands i a := by
  obtain ⟨pre, post, rfl, rfl⟩ := h
  exact ⟨pre, b ++ post, by simp, rfl⟩

theorem within (h : Stands commands i part) (pre post : List Command) :
    Stands (pre ++ commands ++ post) (pre.length + i) part := by
  obtain ⟨u, v, rfl, rfl⟩ := h
  exact ⟨pre ++ u, v ++ post, by simp, by simp⟩

end Stands

namespace Pair

variable {commands : List Command} {i j i' j' : Nat}

theorem lt_length (h : Pair commands i j) : j < commands.length := (List.getElem?_eq_some_iff.1 h.stop).1

theorem balanced_slice (h : Pair commands i j) : Balanced (slice commands (i + 1) j) := h.between

/-- a pair that begins inside another one ends inside it -/
theorem lt_of_inside (h : Pair commands i j) (h' : Pair commands i' j') (hi : i < i') (hj : i' < j) : j' < j := by
  by_contra hn
  -- what stands between the second start and the first end is a suffix of one body and a prefix of the other
  have hsuffix : Balanced (slice commands (i + 1) i' ++ (.loopStart :: slice commands (i' + 1) j)) := by
    have := h.balanced_slice
    rwa [← slice_append (Nat.succ_le_of_lt hi) (Nat.le_of_lt hj), ← slice_append (Nat.le_succ i') hj,
      slice_succ h'.start] at this
  have hprefix : Balanced (slice commands (i' + 1) j ++ slice commands j j') := by
    rw [slice_append hj (Nat.le_of_not_lt hn)]
    exact h'.balanced_slice
  have h1 := hsuffix.count_suffix_le
  have h2 := hprefix.count_prefix_le
  simp only [List.count_cons_self, List.count_cons_of_ne (show Command.loopStart ≠ Command.loopEnd by decide)] at h1
  omega

theorem start_ne_stop (h : Pair commands i j) (h' : Pair commands i' j') : i ≠ j' := by
  rintro rfl
  have := h.start.symm.trans h'.stop
  simp at this

/-- two pairs are the same, or one is inside the other, or they are apart -/
theorem nested_or_disjoint (h : Pair commands i j) (h' : Pair commands i' j') (hi : i < i') :
    j < i' ∨ j' < j := by
  rcases Nat.lt_or_ge j i' with hj | hj
  · exact .inl hj
  · exact .inr (h.lt_of_inside h' hi (lt_of_le_of_ne hj (h'.start_ne_stop h)))

/-- a loop end closes one loop only -/
theorem start_unique (h : Pair commands i j) (h' : Pair commands i' j) : i = i' := by
  rcases Nat.lt_trichotomy i i' with hi | hi | hi
  · exact absurd (h.lt_of_inside h' hi h'.lt) (Nat.lt_irrefl j)
  · exact hi
  · exact absurd (h'.lt_of_inside h hi h.lt) (Nat.lt_irrefl j)

theorem not_lt_stop (h : Pair commands i j) (h' : Pair commands i j') : ¬ j < j' := by
  intro hj
  have hbody : Balanced (slice commands (i + 1) j ++ [Command.loopEnd] ++ slice commands (j + 1) j') := by
    rw [← slice_succ h.stop, slice_append h.lt (Nat.le_succ j), slice_append (by have := h.lt; omega) hj]
    exact h'.balanced_slice
  have h1 := hbody.count_prefix_le
  have h2 := h.balanced_slice.count_eq
  simp at h1
  omega

/-- a loop start opens one loop only -/
theorem stop_unique (h : Pair commands i j) (h' : Pair commands i j') : j = j' :=
  Nat.le_antisymm (Nat.le_of_not_lt (h'.not_lt_stop h)) (Nat.le_of_not_lt (h.not_lt_stop h'))

/-- a loop that stands in the sequence is a pair -/
theorem of_stands {body rest : List Command} (hb : Balanced body)
    (h : Stands commands i (.loopStart :: (body ++ .loopEnd :: rest))) : Pair commands i (i + body.length + 1) := by
  have hstop : Stands commands (i + 1 + body.length) (.loopEnd :: rest) := h.tail.right
  refine ⟨by omega, h.head, ?_, ?_⟩
  · rw [show i + body.length + 1 = i + 1 + body.length by omega]
    exact hstop.head
  · obtain ⟨pre, post, rfl, rfl⟩ := h
    have htake : (pre ++ .loopStart :: (body ++ .loopEnd :: rest) ++ post).take (pre.length + body.length + 1) =
        pre ++ [.loopStart] ++ body := by
      rw [show pre ++ .loopStart :: (body ++ .loopEnd :: rest) ++ post =
        (pre ++ [.loopStart] ++ body) ++ (.loopEnd :: rest ++ post) by simp]
      exact List.take_left' (by simp; omega)
    rw [htake, List.drop_left' (by simp)]
    exact hb

/-- a pair is a loop that stands in the sequence -/
theorem exists_stands (h : Pair commands i j) : ∃ body : List Command,
    Balanced body ∧ Stands commands i (.loopStart :: (body ++ [.loopEnd])) ∧ i + body.length + 1 = j := by
  have hlen := h.lt_length
  have hlt := h.lt
  refine ⟨slice commands (i + 1) j, h.balanced_slice,
    ⟨slice commands 0 i, slice commands (j + 1) commands.length, ?_, ?_⟩, ?_⟩
  · have hall : slice commands 0 commands.length = commands := by simp [slice]
    have hcons : ∀ (c : Command) (l : List Command), c :: l = [c] ++ l := fun _ _ => rfl
    rw [hcons .loopStart, ← slice_succ h.start, ← slice_succ h.stop, slice_append hlt (Nat.le_succ j),
      slice_append (Nat.le_succ i) (by omega), slice_append (Nat.zero_le i) (by omega),
      slice_append (Nat.zero_le _) hlen, hall]
  · simp [slice]; omega
  · simp [slice]; omega

/-- a pair stays one in a longer sequence -/
theorem within (h : Pair commands i j) (pre post : List Command) :
    Pair (pre ++ commands ++ post) (pre.length + i) (pre.length + j) := by
  obtain ⟨body, hb, hs, rfl⟩ := h.exists_stands
  simpa [Nat.add_assoc] using of_stands hb (hs.within pre post)

theorem append (h : Pair commands i j) (post : List Command) : Pair (commands ++ post) i j := by
  simpa using h.within [] post

/-- a pair that ends inside the front part is one of the front part -/
theorem of_append {post : List Command} (h : Pair (commands ++ post) i j) (hj : j < commands.length) :
    Pair commands i j where
  lt := h.lt
  start := by rw [← h.start, List.getElem?_append_left (Nat.lt_trans h.lt hj)]
  stop := by rw [← h.stop, List.getElem?_append_left hj]
  between := by
    have := h.between
    rwa [List.take_append_of_le_length (Nat.le_of_lt hj)] at this

end Pair

/-- a loop start that is followed by a balanced rest is open -/
theorem not_pair_open {pre body : List Command} (hb : Balanced body) (j : Nat) :
    ¬ Pair (pre ++ .loopStart :: body) pre.length j := by
  intro h
  obtain ⟨inner, hinner, ⟨u, v, hsplit, hu⟩, -⟩ := h.exists_stands
  rw [List.append_assoc] at hsplit
  obtain ⟨-, hbody⟩ := List.append_inj hsplit hu.symm
  have hprefix : Balanced (inner ++ [Command.loopEnd] ++ v) := by
    simp only [List.cons_append, List.cons.injEq, true_and] at hbody
    exact hbody ▸ hb
  have h1 := hprefix.count_prefix_le
  have h2 := hinner.count_eq
  simp at h1
  omega

/-- `i` and `j` are the two brackets of a loop, in either order -/
def Partners (commands : List Command) (i j : Nat) : Prop := Pair commands i j ∨ Pair commands j i

theorem Partners.lt_length {commands : List Command} {i j : Nat} (h : Partners commands i j) :
    i < commands.length := by
  rcases h with h | h
  · exact Nat.lt_trans h.lt h.lt_length
  · exact h.lt_length

theorem Partners.within {commands : List Command} {i j : Nat} (h : Partners commands i j) (pre post : List Command) :
    Partners (pre ++ commands ++ post) (pre.length + i) (pre.length + j) :=
  h.imp (fun p => p.within pre post) fun p => p.within pre post

end Bracket

open Brainfuck.Bracket in
/-- in a balanced sequence every bracket has its partner -/
theorem Balanced.exists_partner {commands : List Command} (h : Balanced commands) {i : Nat} {c : Command}
    (hi : commands[i]? = some c) (hc : ¬ c.IsPlain) : ∃ j, Partners commands i j := by
  induction h generalizing i with
  | nil => simp at hi
  | @plain d rest hd _ ih =>
    rcases i with _ | i
    · simp only [List.getElem?_cons_zero, Option.some.injEq] at hi
      exact absurd (hi ▸ hd) hc
    · rw [List.getElem?_cons_succ] at hi
      obtain ⟨j, hj⟩ := ih hi
      exact ⟨1 + j, by simpa [Nat.add_comm] using hj.within [d] []⟩
  | @loop body rest hbody _ ihb ihr =>
    have hpair : Pair (.loopStart :: body ++ .loopEnd :: rest) 0 (body.length + 1) := by
      simpa using Pair.of_stands hbody .self
    rcases i with _ | i
    · exact ⟨_, .inl hpair⟩
    rw [List.cons_append, List.getElem?_cons_succ] at hi
    rcases Nat.lt_trichotomy i body.length with hlt | rfl | hgt
    · rw [List.getElem?_append_left hlt] at hi
      obtain ⟨j, hj⟩ := ihb hi
      exact ⟨1 + j, by simpa [Nat.add_comm] using hj.within [.loopStart] (.loopEnd :: rest)⟩
    · exact ⟨0, .inr hpair⟩
    · obtain ⟨k, rfl⟩ : ∃ k, i = body.length + 1 + k := ⟨i - (body.length + 1), by omega⟩
      rw [List.getElem?_append_right (by omega), show body.length + 1 + k - body.length = k + 1 by omega,
        List.getElem?_cons_succ] at hi
      obtain ⟨j, hj⟩ := ihr hi
      have := hj.within (.loopStart :: body ++ [.loopEnd]) []
      rw [show (Command.loopStart :: body ++ [Command.loopEnd]).length + k = body.length + 1 + k + 1 by
        simp; omega] at this
      exact ⟨_, by simpa using this⟩

namespace Bracket

theorem exists_stop {commands : List Command} (h : Balanced commands) {i : Nat}
    (hi : commands[i]? = some .loopStart) : ∃ j, Pair commands i j := by
  obtain ⟨j, hj | hj⟩ := h.exists_partner hi (by decide)
  · exact ⟨j, hj⟩
  · exact absurd (hi.symm.trans hj.stop) (by simp)

theorem exists_start {commands : List Command} (h : Balanced commands) {j : Nat}
    (hj : commands[j]? = some .loopEnd) : ∃ i, Pair commands i j := by
  obtain ⟨i, hi | hi⟩ := h.exists_partner hj (by decide)
  · exact absurd (hj.symm.trans hi.start) (by simp)
  · exact ⟨i, hi⟩

end Bracket

end Brainfuck
