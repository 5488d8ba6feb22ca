/-
What reading a sequence once finds out about its brackets.

`Bracket.Reads pre l`: after the part `pre` the links `l` are right. The pending indices cut `pre` into balanced
stretches (`Pending`), and two indices are in the table exactly if they are partners in `pre`. Each command read keeps
this (`Reads.read`), so it holds of the whole sequence (`reads_link`). Nothing is left pending exactly if the sequence
is balanced (`balanced_iff_link`).
-/
import Brainfuck.Proofs.Balance

namespace Brainfuck

namespace Bracket

/-! ## The invariant -/

/-- the loop starts of a sequence that are still open, innermost first -/
inductive Pending : List Command → List Nat → Prop where
  | closed {pre : List Command} : Balanced pre → Pending pre []
  | opened {pre body : List Command} {pending : List Nat} :
      Pending pre pending → Balanced body → Pending (pre ++ .loopStart :: body) (pre.length :: pending)

theorem Pending.append {pre body : List Command} {pending : List Nat} (h : Pending pre pending) (hb : Balanced body) :
    Pending (pre ++ body) pending := by
  cases h with
  | closed hp => exact .closed (hp.append hb)
  | opened hp hbody => simpa using Pending.opened hp (hbody.append hb)

/-- the links are right after the part `pre` -/
structure Reads (pre : List Command) (l : Links) : Prop where
  pending : Pending pre l.pending
  table : ∀ i j, l.table[i]? = some (some j) ↔ Partners pre i j

theorem reads_empty (length : Nat) : Reads [] (.empty length) where
  pending := .closed .nil
  table i j := by
    refine ⟨fun h => ?_, fun h => absurd h.lt_length (Nat.not_lt_zero i)⟩
    simp [Links.empty, Array.getElem?_replicate] at h

/-! ## One command -/

section Snoc

variable {pre : List Command} {i j : Nat}

theorem pair_snoc_iff {c : Command} (hc : c ≠ .loopEnd) : Pair (pre ++ [c]) i j ↔ Pair pre i j := by
  refine ⟨fun h => ?_, fun h => h.append [c]⟩
  rcases Nat.lt_or_ge j pre.length with hj | hj
  · exact h.of_append hj
  · have hlast : j = pre.length := by have := h.lt_length; simp at this; omega
    have hstop := h.stop
    rw [hlast, List.getElem?_append_right (Nat.le_refl _)] at hstop
    simp at hstop
    exact absurd hstop hc

theorem partners_snoc_iff {c : Command} (hc : c ≠ .loopEnd) : Partners (pre ++ [c]) i j ↔ Partners pre i j :=
  or_congr (pair_snoc_iff hc) (pair_snoc_iff hc)

theorem pair_snoc_loopEnd_iff {start : Nat} (hnew : Pair (pre ++ [.loopEnd]) start pre.length) :
    Pair (pre ++ [.loopEnd]) i j ↔ Pair pre i j ∨ i = start ∧ j = pre.length := by
  refine ⟨fun h => ?_, ?_⟩
  · rcases Nat.lt_or_ge j pre.length with hj | hj
    · exact .inl (h.of_append hj)
    · have hlast : j = pre.length := by have := h.lt_length; simp at this; omega
      subst hlast
      exact .inr ⟨h.start_unique hnew, rfl⟩
  · rintro (h | ⟨rfl, rfl⟩)
    · exact h.append _
    · exact hnew

end Snoc

theorem getElem?_pair {table : Array (Option Nat)} {start stop : Nat} (hlt : start < stop) (hs : stop < table.size)
    (i : Nat) : (Links.pair table start stop)[i]? =
      if i = stop then some (some start) else if i = start then some (some stop) else table[i]? := by
  simp only [Links.pair, Array.getElem?_setIfInBounds, Array.size_setIfInBounds]
  by_cases h1 : i = stop
  · subst h1; simp [hs]
  · by_cases h2 : i = start
    · subst h2; simp [Nat.ne_of_gt hlt, show i < table.size by omega, h1]
    · simp [h1, h2, Ne.symm h1, Ne.symm h2]

/-- the innermost open loop and the loop end just read become partners -/
theorem Reads.close {pre : List Command} {l : Links} {start : Nat} {pending : List Nat} (h : Reads pre l)
    (hp : l.pending = start :: pending) (hlt : pre.length < l.table.size) :
    Reads (pre ++ [.loopEnd]) ⟨Links.pair l.table start pre.length, pending⟩ := by
  have hopen := h.pending
  rw [hp] at hopen
  cases hopen with
  | @opened pre' body _ hpre hbody =>
    set all := pre' ++ Command.loopStart :: body
    have hnew : Pair (all ++ [.loopEnd]) pre'.length all.length := by
      have hloop : Stands (all ++ [.loopEnd]) pre'.length (.loopStart :: (body ++ [.loopEnd])) :=
        ⟨pre', [], by simp [all], rfl⟩
      simpa [all, Nat.add_assoc] using Pair.of_stands hbody hloop
    have hfree : ∀ j, ¬ Partners all pre'.length j := by
      rintro j (hj | hj)
      · exact not_pair_open hbody j hj
      · have := hj.stop
        simp [all] at this
    refine ⟨?_, fun i j => ?_⟩
    · have : Pending (pre' ++ (.loopStart :: body ++ [.loopEnd])) pending := hpre.append (.loop hbody .nil)
      simpa [all] using this
    · have hlt' : pre'.length < all.length := by simp [all]
      have hlast : ∀ k, ¬ Partners all all.length k := fun k hk => Nat.lt_irrefl _ hk.lt_length
      rw [getElem?_pair hlt' hlt, Partners, pair_snoc_loopEnd_iff hnew, pair_snoc_loopEnd_iff hnew]
      split_ifs with h1 h2
      · have := hlast j
        simp only [Partners] at this
        grind
      · have := hfree j
        simp only [Partners] at this
        grind
      · rw [h.table, Partners]
        grind

theorem Reads.read {pre : List Command} {l l' : Links} {c : Command} (h : Reads pre l)
    (hlt : pre.length < l.table.size) (hr : l.read pre.length c = some l') : Reads (pre ++ [c]) l' := by
  have hplain : ∀ {d : Command}, d.IsPlain → Reads (pre ++ [d]) l := fun hd =>
    ⟨h.pending.append (.plain hd .nil), fun i j => by rw [h.table, partners_snoc_iff hd.2]⟩
  cases c with
  | loopStart =>
    simp only [Links.read, Option.some.injEq] at hr
    subst hr
    exact ⟨.opened h.pending .nil, fun i j => by rw [h.table, partners_snoc_iff (by decide)]⟩
  | loopEnd =>
    simp only [Links.read] at hr
    split at hr
    · cases hr
    · rename_i start pending hp
      simp only [Option.some.injEq] at hr
      subst hr
      exact h.close hp hlt
  | _ =>
    simp only [Links.read, Option.some.injEq] at hr
    subst hr
    exact hplain (by decide)

/-! ## Whole sequences -/

theorem Reads.linkFrom {pre rest : List Command} {l l' : Links} (h : Reads pre l)
    (hlen : pre.length + rest.length ≤ l.table.size) (hr : linkFrom pre.length l rest = .ok l') :
    Reads (pre ++ rest) l' := by
  induction rest generalizing pre l with
  | nil =>
    simp only [Bracket.linkFrom, Except.ok.injEq] at hr
    subst hr
    simpa using h
  | cons c rest ih =>
    rw [List.length_cons] at hlen
    simp only [Bracket.linkFrom] at hr
    split at hr
    · cases hr
    · rename_i l1 hl1
      have hstep := h.read (by omega) hl1
      have := ih hstep (by rw [size_table_of_read hl1]; simp; omega) (by simpa using hr)
      simpa using this

/-- after the whole sequence the table holds its pairs, and nothing else -/
theorem reads_link {commands : List Command} {l : Links} (h : link commands = .ok l) : Reads commands l := by
  have hlen : ([] : List Command).length + commands.length ≤ (Links.empty commands.length).table.size := by
    simp [Links.empty]
  simpa using (reads_empty commands.length).linkFrom hlen h

/-- a balanced stretch is read without touching the loops that are open around it -/
theorem linkFrom_balanced {body : List Command} (h : Balanced body) (index : Nat) (l : Links) (rest : List Command) :
    ∃ table, linkFrom index l (body ++ rest) = linkFrom (index + body.length) ⟨table, l.pending⟩ rest := by
  induction h generalizing index l rest with
  | nil => exact ⟨l.table, rfl⟩
  | @plain c body hc _ ih =>
    obtain ⟨table, ht⟩ := ih (index + 1) l rest
    refine ⟨table, ?_⟩
    have hread : l.read index c = some l := by
      cases c <;> first | rfl | exact absurd hc (by decide)
    simp only [List.cons_append, linkFrom, hread, ht, List.length_cons]
    rw [show index + 1 + body.length = index + (body.length + 1) by omega]
  | @loop inner body _ _ ihi ihb =>
    -- the loop start is pushed, the inside leaves it on top, and the loop end takes it off again
    obtain ⟨t1, h1⟩ := ihi (index + 1) { l with pending := index :: l.pending } (.loopEnd :: body ++ rest)
    obtain ⟨t2, h2⟩ := ihb (index + 1 + inner.length + 1)
      ⟨Links.pair t1 index (index + 1 + inner.length), l.pending⟩ rest
    refine ⟨t2, ?_⟩
    simp only [List.cons_append, List.append_assoc] at h1 ⊢
    simp only [linkFrom, Links.read, h1, h2, List.length_append, List.length_cons]
    rw [show index + 1 + inner.length + 1 + body.length = index + (inner.length + (body.length + 1) + 1) by omega]

/-- **Nothing stays pending exactly in the balanced sequences.** -/
theorem balanced_iff_link {commands : List Command} :
    Balanced commands ↔ ∃ l, link commands = .ok l ∧ l.pending = [] := by
  constructor
  · intro h
    obtain ⟨table, ht⟩ := linkFrom_balanced h 0 (.empty commands.length) []
    rw [List.append_nil] at ht
    exact ⟨⟨table, []⟩, ht, rfl⟩
  · rintro ⟨l, hl, hp⟩
    have := (reads_link hl).pending
    rw [hp] at this
    cases this with
    | closed h => exact h

end Bracket

end Brainfuck
