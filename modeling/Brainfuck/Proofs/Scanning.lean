/-
What a bracket scan finds, from any index.

A scan may begin anywhere. A negative index counts from the end, so a scan that runs past one end of the sequence can
come in again at the other, and read all of it once more before it leaves.

- `Encloses commands k i j`: the loop with the brackets `i` and `j` is around the gap in front of the index `k`.
- `Gap`: either no loop is around a gap, and the sequence is balanced on both sides of it; or one loop is the innermost
  around it, and what stands between the gap and either bracket of that loop is balanced. Of a balanced sequence every
  gap is one of the two (`Balanced.gap`).
- A scan passes whatever is balanced, so from a gap it comes to the bracket of the innermost loop or to the end
  (`scanForwardFrom_gap`, `scanBackwardFrom_gap`), where it comes in again at the other end and passes everything.
- `scanForwardWithin`, `scanBackwardWithin`: the scans as loops that may look at so many commands. Twice the length and
  one more is always enough.
- `scans_find_innermost_loops`: all of it, for every program that can be parsed and every index.
-/
import Brainfuck.Proofs.Parsing

namespace Brainfuck

open Brainfuck.Bracket

/-! ## Gaps of a balanced sequence -/

/-- a balanced sequence cut in two: both parts are balanced, or a loop begins in the first and ends in the second, with
nothing open in it on either side of the cut -/
theorem Balanced.cut {pre suf : List Command} (h : Balanced (pre ++ suf)) :
    Balanced pre ∧ Balanced suf ∨ ∃ front a b back, pre = front ++ .loopStart :: a ∧ suf = b ++ .loopEnd :: back ∧
      Balanced a ∧ Balanced b := by
  generalize hw : pre ++ suf = w at h
  induction h generalizing pre suf with
  | nil =>
    obtain ⟨rfl, rfl⟩ := List.append_eq_nil_iff.1 hw
    exact .inl ⟨.nil, .nil⟩
  | @plain c rest hc hrest ih =>
    rcases pre with _ | ⟨d, pre⟩
    · obtain rfl : suf = c :: rest := hw
      exact .inl ⟨.nil, .plain hc hrest⟩
    · simp only [List.cons_append, List.cons.injEq] at hw
      obtain ⟨rfl, hw⟩ := hw
      rcases ih hw with ⟨hpre, hsuf⟩ | ⟨front, a, b, back, rfl, rfl, ha, hb⟩
      · exact .inl ⟨.plain hc hpre, hsuf⟩
      · exact .inr ⟨d :: front, a, b, back, rfl, rfl, ha, hb⟩
  | @loop body rest hbody hrest ihb ihr =>
    rcases pre with _ | ⟨d, pre⟩
    · obtain rfl : suf = .loopStart :: body ++ .loopEnd :: rest := hw
      exact .inl ⟨.nil, .loop hbody hrest⟩
    · simp only [List.cons_append, List.cons.injEq] at hw
      obtain ⟨rfl, hw⟩ := hw
      -- the cut is inside the body, in front of the loop end, or behind it
      rcases List.append_eq_append_iff.1 hw with ⟨x, rfl, rfl⟩ | ⟨x, rfl, hx⟩
      · rcases ihb rfl with ⟨hpre, hx⟩ | ⟨front, a, b, back, rfl, rfl, ha, hb⟩
        · exact .inr ⟨[], pre, x, rest, rfl, rfl, hpre, hx⟩
        · exact .inr ⟨.loopStart :: front, a, b, back ++ .loopEnd :: rest, rfl, by simp, ha, hb⟩
      · rcases x with _ | ⟨e, x⟩
        · exact .inr ⟨[], body, [], rest, by simp, hx.symm, hbody, .nil⟩
        · simp only [List.cons_append, List.cons.injEq] at hx
          obtain ⟨rfl, hx⟩ := hx
          rcases ihr hx.symm with ⟨hpre, hsuf⟩ | ⟨front, a, b, back, rfl, rfl, ha, hb⟩
          · exact .inl ⟨.loop hbody hpre, hsuf⟩
          · exact .inr ⟨.loopStart :: body ++ .loopEnd :: front, a, b, back, by simp, rfl, ha, hb⟩

namespace Bracket

variable {commands : List Command} {i j i' j' k lo hi : Nat}

/-- the loop with the brackets `i` and `j` is around the gap in front of the index `k` -/
structure Encloses (commands : List Command) (k i j : Nat) : Prop where
  pair : Pair commands i j
  lt : i < k
  le : k ≤ j

/-- the commands from `lo` to just before `hi` are balanced -/
def Stretch (commands : List Command) (lo hi : Nat) : Prop :=
  ∃ part, Balanced part ∧ Stands commands lo part ∧ lo + part.length = hi

theorem stretch_self (h : Balanced commands) : Stretch commands 0 commands.length :=
  ⟨commands, h, .self, Nat.zero_add _⟩

/-- a loop that begins in a balanced stretch ends in it -/
theorem Stretch.stop_lt (h : Stretch commands lo hi) (hp : Pair commands i j) (hlo : lo ≤ i) (hhi : i < hi) :
    j < hi := by
  obtain ⟨part, hpart, ⟨pre, post, rfl, rfl⟩, rfl⟩ := h
  obtain ⟨t, rfl⟩ := Nat.exists_eq_add_of_le hlo
  have ht : t < part.length := by omega
  have hstart := hp.start
  rw [List.append_assoc, List.getElem?_append_right (Nat.le_add_right _ _), Nat.add_sub_cancel_left,
    List.getElem?_append_left ht] at hstart
  obtain ⟨s, hs⟩ := exists_stop hpart hstart
  rw [hp.stop_unique (hs.within pre post)]
  exact Nat.add_lt_add_left hs.lt_length _

/-- where the gap in front of an index is -/
inductive Gap (commands : List Command) (k : Nat) : Prop where
  | outside : Stretch commands 0 k → Stretch commands k commands.length → (∀ i j, ¬ Encloses commands k i j) →
      Gap commands k
  | inside {i j : Nat} : Encloses commands k i j → Stretch commands (i + 1) k → Stretch commands k j →
      (∀ i' j', Encloses commands k i' j' → i' ≤ i ∧ j ≤ j') → Gap commands k

/-- a loop with nothing open in it in front of a gap is the innermost one around the gap -/
theorem Encloses.innermost (h : Encloses commands k i j) (hclear : Stretch commands (i + 1) k)
    (h' : Encloses commands k i' j') : i' ≤ i ∧ j ≤ j' := by
  have hstart : i' ≤ i := by
    by_contra hlt
    have hstop := hclear.stop_lt h'.pair (Nat.lt_of_not_le hlt) h'.lt
    exact absurd h'.le (Nat.not_le_of_lt hstop)
  refine ⟨hstart, ?_⟩
  rcases Nat.lt_or_eq_of_le hstart with hlt | rfl
  · rcases h'.pair.nested_or_disjoint h.pair hlt with hapart | hnested
    · have := h'.le
      have := h.lt
      omega
    · exact Nat.le_of_lt hnested
  · exact Nat.le_of_eq (h.pair.stop_unique h'.pair)

end Bracket

/-- every gap of a balanced sequence is outside of all loops or has an innermost loop around it -/
theorem Balanced.gap {commands : List Command} (h : Balanced commands) {k : Nat} (hk : k ≤ commands.length) :
    Gap commands k := by
  obtain ⟨pre, suf, rfl, rfl⟩ : ∃ pre suf, commands = pre ++ suf ∧ pre.length = k :=
    ⟨commands.take k, commands.drop k, (List.take_append_drop k commands).symm, List.length_take_of_le hk⟩
  rcases h.cut with ⟨hpre, hsuf⟩ | ⟨front, a, b, back, rfl, rfl, ha, hb⟩
  · have hfront : Stretch (pre ++ suf) 0 pre.length := ⟨pre, hpre, ⟨[], suf, rfl, rfl⟩, Nat.zero_add _⟩
    have hback : Stretch (pre ++ suf) pre.length (pre ++ suf).length :=
      ⟨suf, hsuf, ⟨pre, [], by simp, rfl⟩, by simp⟩
    refine .outside hfront hback fun i j henc => ?_
    exact absurd henc.le (Nat.not_le_of_lt (hfront.stop_lt henc.pair (Nat.zero_le i) henc.lt))
  · have hloop : Stands (front ++ .loopStart :: a ++ (b ++ .loopEnd :: back)) front.length
        (.loopStart :: (a ++ b ++ .loopEnd :: back)) := ⟨front, [], by simp, rfl⟩
    have hlength : (front ++ Command.loopStart :: a).length = front.length + 1 + a.length := by
      simp
      omega
    have henc : Encloses (front ++ .loopStart :: a ++ (b ++ .loopEnd :: back)) (front ++ .loopStart :: a).length
        front.length (front.length + (a ++ b).length + 1) :=
      ⟨.of_stands (ha.append hb) hloop, by omega, by rw [hlength, List.length_append]; omega⟩
    have hfront : Stretch (front ++ .loopStart :: a ++ (b ++ .loopEnd :: back)) (front.length + 1)
        (front ++ .loopStart :: a).length :=
      ⟨a, ha, ⟨front ++ [.loopStart], b ++ .loopEnd :: back, by simp, by simp⟩, hlength.symm⟩
    have hback : Stretch (front ++ .loopStart :: a ++ (b ++ .loopEnd :: back)) (front ++ .loopStart :: a).length
        (front.length + (a ++ b).length + 1) :=
      ⟨b, hb, ⟨front ++ .loopStart :: a, .loopEnd :: back, by simp, rfl⟩, by
        rw [hlength, List.length_append]; omega⟩
    exact .inside henc hfront hback fun i' j' => henc.innermost hfront

/-! ## Scans from a gap -/

section Scans

variable {commands : Array Command} {base i : Int} {depth j k : Nat}

theorem commandAt_eq_none_iff : commandAt commands i = none ↔ i < -commands.size ∨ commands.size ≤ i := by
  unfold commandAt
  split
  · rw [Array.getElem?_eq_none_iff]
    omega
  · split
    · rw [Array.getElem?_eq_none_iff]
      omega
    · simp
      omega

theorem scanForwardFrom_of_none (h : commandAt commands (i + 1) = none) : scanForwardFrom commands depth i = none := by
  rw [scanForwardFrom.eq_def]
  split <;> simp_all

theorem scanBackwardFrom_of_none (h : commandAt commands (i - 1) = none) :
    scanBackwardFrom commands depth i = none := by
  rw [scanBackwardFrom.eq_def]
  split <;> simp_all

theorem scanForwardFrom_stretch (depth : Nat) (hb : BeginsAt commands base) {l r : Nat}
    (h : Stretch commands.toList l r) :
    scanForwardFrom commands depth (base + l - 1) = scanForwardFrom commands depth (base + r - 1) := by
  obtain ⟨part, hpart, hstands, rfl⟩ := h
  exact scanForwardFrom_balanced hb hpart depth hstands

theorem scanBackwardFrom_stretch (depth : Nat) (hb : BeginsAt commands base) {l r : Nat}
    (h : Stretch commands.toList l r) :
    scanBackwardFrom commands depth (base + r) = scanBackwardFrom commands depth (base + l) := by
  obtain ⟨part, hpart, hstands, rfl⟩ := h
  exact scanBackwardFrom_balanced hb hpart depth hstands

/-- a forward scan that comes to the end finds nothing, at its second reading at the latest -/
theorem scanForwardFrom_end (hbal : Balanced commands.toList) (hb : BeginsAt commands base) :
    scanForwardFrom commands depth (base + commands.size - 1) = none := by
  have hend : scanForwardFrom commands depth (commands.size - 1) = none := by
    refine scanForwardFrom_of_none (commandAt_eq_none_iff.2 (.inr ?_))
    omega
  rcases hb with rfl | rfl
  · rw [zero_add]
    exact hend
  · -- the scan comes in again at the front, and passes the whole sequence
    have hpass := scanForwardFrom_stretch depth (.inl rfl) (stretch_self hbal)
    rw [zero_add, zero_add, Array.length_toList, hend] at hpass
    rw [neg_add_cancel]
    exact hpass

/-- a backward scan that comes to the front finds nothing, at its second reading at the latest -/
theorem scanBackwardFrom_front (hbal : Balanced commands.toList) (hb : BeginsAt commands base) :
    scanBackwardFrom commands depth base = none := by
  have hfront : scanBackwardFrom commands depth (-commands.size) = none := by
    refine scanBackwardFrom_of_none (commandAt_eq_none_iff.2 (.inl ?_))
    omega
  rcases hb with rfl | rfl
  · -- the scan comes in again at the end, and passes the whole sequence
    have hpass := scanBackwardFrom_stretch depth (.inr rfl) (stretch_self hbal)
    rw [Array.length_toList, neg_add_cancel, Nat.cast_zero, add_zero, hfront] at hpass
    exact hpass
  · exact hfront

/-- what a search for the least number of a set answers -/
def IsLeastIfAny (numbers : Set Int) : Option Int → Prop
  | some c => IsLeast numbers c
  | none => numbers = ∅

/-- what a search for the greatest number of a set answers -/
def IsGreatestIfAny (numbers : Set Int) : Option Int → Prop
  | some c => IsGreatest numbers c
  | none => numbers = ∅

/-- from a gap a forward scan comes to the end of the innermost loop around it -/
theorem scanForwardFrom_gap (hbal : Balanced commands.toList) (hb : BeginsAt commands base) (hk : k ≤ commands.size) :
    IsLeastIfAny {c | ∃ i j : Nat, Encloses commands.toList k i j ∧ c = j}
      ((scanForwardFrom commands 0 (base + k - 1)).map (· - base)) := by
  cases hbal.gap (k := k) (by simpa using hk) with
  | outside _ hback hnone =>
    rw [scanForwardFrom_stretch 0 hb hback, Array.length_toList, scanForwardFrom_end hbal hb]
    exact Set.eq_empty_of_forall_notMem fun c ⟨i, j, henc, _⟩ => hnone i j henc
  | @inside i j henc _ hback hinner =>
    rw [scanForwardFrom_stretch 0 hb hback, scanForwardFrom_stop hb henc.pair.stop, Option.map_some,
      add_sub_cancel_left]
    refine ⟨⟨i, j, henc, rfl⟩, ?_⟩
    rintro _ ⟨i', j', henc', rfl⟩
    exact Int.ofNat_le.2 (hinner i' j' henc').2

/-- from a gap a backward scan comes to the start of the innermost loop around it -/
theorem scanBackwardFrom_gap (hbal : Balanced commands.toList) (hb : BeginsAt commands base) (hk : k ≤ commands.size) :
    IsGreatestIfAny {o | ∃ i j : Nat, Encloses commands.toList k i j ∧ o = i}
      ((scanBackwardFrom commands 0 (base + k)).map (· - base)) := by
  cases hbal.gap (k := k) (by simpa using hk) with
  | outside hfront _ hnone =>
    rw [scanBackwardFrom_stretch 0 hb hfront, Nat.cast_zero, add_zero, scanBackwardFrom_front hbal hb]
    exact Set.eq_empty_of_forall_notMem fun c ⟨i, j, henc, _⟩ => hnone i j henc
  | @inside i j henc hfront _ hinner =>
    rw [scanBackwardFrom_stretch 0 hb hfront, Nat.cast_succ, ← add_assoc, scanBackwardFrom_stop hb henc.pair.start,
      Option.map_some, add_sub_cancel_left]
    refine ⟨⟨i, j, henc, rfl⟩, ?_⟩
    rintro _ ⟨i', j', henc', rfl⟩
    exact Int.ofNat_le.2 (hinner i' j' henc').1

end Scans

/-! ## A number of looks -/

/-- a forward scan that may look at so many commands; `none` if it is not over then -/
def scanForwardWithin (commands : Array Command) : Nat → Nat → Int → Option (Option Int)
  | 0, _, _ => none
  | looks + 1, depth, i =>
    match commandAt commands (i + 1) with
    | none => some none
    | some .loopStart => scanForwardWithin commands looks (depth + 1) (i + 1)
    | some .loopEnd =>
      match depth with
      | 0 => some (some (i + 1))
      | depth + 1 => scanForwardWithin commands looks depth (i + 1)
    | some _ => scanForwardWithin commands looks depth (i + 1)

/-- a backward scan that may look at so many commands; `none` if it is not over then -/
def scanBackwardWithin (commands : Array Command) : Nat → Nat → Int → Option (Option Int)
  | 0, _, _ => none
  | looks + 1, depth, i =>
    match commandAt commands (i - 1) with
    | none => some none
    | some .loopEnd => scanBackwardWithin commands looks (depth + 1) (i - 1)
    | some .loopStart =>
      match depth with
      | 0 => some (some (i - 1))
      | depth + 1 => scanBackwardWithin commands looks depth (i - 1)
    | some _ => scanBackwardWithin commands looks depth (i - 1)

section Looks

variable {commands : Array Command} {looks : Nat}

/-- one look for each command from the next one to the end, and a last one that finds none, are enough -/
theorem scanForwardWithin_eq (depth : Nat) (i : Int) (hpos : 0 < looks) (hlooks : (commands.size : Int) - i ≤ looks) :
    scanForwardWithin commands looks depth i = some (scanForwardFrom commands depth i) := by
  fun_induction scanForwardFrom commands depth i generalizing looks with
  | case1 depth i hc =>
    obtain ⟨looks, rfl⟩ := Nat.exists_eq_add_of_lt hpos
    simp only [scanForwardWithin, hc]
  | case3 i hc =>
    obtain ⟨looks, rfl⟩ := Nat.exists_eq_add_of_lt hpos
    simp only [scanForwardWithin, hc]
  | case2 depth i hc ih =>
    have := lt_size_of_commandAt hc
    obtain ⟨looks, rfl⟩ := Nat.exists_eq_add_of_lt hpos
    simp only [scanForwardWithin, hc]
    exact ih (by omega) (by omega)
  | case4 i hc depth ih =>
    have := lt_size_of_commandAt hc
    obtain ⟨looks, rfl⟩ := Nat.exists_eq_add_of_lt hpos
    simp only [scanForwardWithin, hc]
    exact ih (by omega) (by omega)
  | case5 depth i c hstart hstop hc ih =>
    have := lt_size_of_commandAt hc
    obtain ⟨looks, rfl⟩ := Nat.exists_eq_add_of_lt hpos
    simp only [scanForwardWithin, hc]
    exact ih (by omega) (by omega)

/-- one look for each command back to the first, and a last one that finds none, are enough -/
theorem scanBackwardWithin_eq (depth : Nat) (i : Int) (hpos : 0 < looks) (hlooks : (commands.size : Int) + i < looks) :
    scanBackwardWithin commands looks depth i = some (scanBackwardFrom commands depth i) := by
  fun_induction scanBackwardFrom commands depth i generalizing looks with
  | case1 depth i hc =>
    obtain ⟨looks, rfl⟩ := Nat.exists_eq_add_of_lt hpos
    simp only [scanBackwardWithin, hc]
  | case3 i hc =>
    obtain ⟨looks, rfl⟩ := Nat.exists_eq_add_of_lt hpos
    simp only [scanBackwardWithin, hc]
  | case2 depth i hc ih =>
    have := neg_size_le_of_commandAt hc
    obtain ⟨looks, rfl⟩ := Nat.exists_eq_add_of_lt hpos
    simp only [scanBackwardWithin, hc]
    exact ih (by omega) (by omega)
  | case4 i hc depth ih =>
    have := neg_size_le_of_commandAt hc
    obtain ⟨looks, rfl⟩ := Nat.exists_eq_add_of_lt hpos
    simp only [scanBackwardWithin, hc]
    exact ih (by omega) (by omega)
  | case5 depth i c hstart hstop hc ih =>
    have := neg_size_le_of_commandAt hc
    obtain ⟨looks, rfl⟩ := Nat.exists_eq_add_of_lt hpos
    simp only [scanBackwardWithin, hc]
    exact ih (by omega) (by omega)

/-- wherever a scan begins, it is over after twice the length and one more look -/
theorem scansWithin_eq (commands : Array Command) (depth : Nat) (i : Int) :
    scanForwardWithin commands (2 * commands.size + 1) depth i = some (scanForwardFrom commands depth i) ∧
      scanBackwardWithin commands (2 * commands.size + 1) depth i = some (scanBackwardFrom commands depth i) := by
  constructor
  · by_cases hi : i + 1 < -commands.size
    · have hnone : commandAt commands (i + 1) = none := commandAt_eq_none_iff.2 (.inl hi)
      simp only [scanForwardWithin, hnone, scanForwardFrom_of_none hnone]
    · exact scanForwardWithin_eq depth i (Nat.succ_pos _) (by omega)
  · by_cases hi : (commands.size : Int) ≤ i - 1
    · have hnone : commandAt commands (i - 1) = none := commandAt_eq_none_iff.2 (.inr hi)
      simp only [scanBackwardWithin, hnone, scanBackwardFrom_of_none hnone]
    · exact scanBackwardWithin_eq depth i (Nat.succ_pos _) (by omega)

end Looks

/-! ## Programs -/

namespace Bracket

/-- the ends of the loops around an index; a loop is around its start and not around its end -/
def endsAround (commands : List Command) (i : Int) : Set Int :=
  {c | ∃ start stop : Nat, Pair commands start stop ∧ (start : Int) ≤ i ∧ i < stop ∧ c = stop}

/-- the starts of the loops around an index; a loop is around its end and not around its start -/
def startsAround (commands : List Command) (i : Int) : Set Int :=
  {o | ∃ start stop : Nat, Pair commands start stop ∧ (start : Int) < i ∧ i ≤ stop ∧ o = start}

theorem endsAround_eq (commands : List Command) {i : Int} {k : Nat} (hk : i + 1 = k) :
    endsAround commands i = {c : Int | ∃ start stop : Nat, Encloses commands k start stop ∧ c = stop} := by
  ext c
  constructor
  · rintro ⟨start, stop, hpair, hlow, hhigh, rfl⟩
    exact ⟨start, stop, ⟨hpair, by omega, by omega⟩, rfl⟩
  · rintro ⟨start, stop, ⟨hpair, hlow, hhigh⟩, rfl⟩
    exact ⟨start, stop, hpair, by omega, by omega, rfl⟩

theorem startsAround_eq (commands : List Command) (k : Nat) :
    startsAround commands k = {o : Int | ∃ start stop : Nat, Encloses commands k start stop ∧ o = start} := by
  ext c
  constructor
  · rintro ⟨start, stop, hpair, hlow, hhigh, rfl⟩
    exact ⟨start, stop, ⟨hpair, Int.ofNat_lt.1 hlow, Int.ofNat_le.1 hhigh⟩, rfl⟩
  · rintro ⟨start, stop, ⟨hpair, hlow, hhigh⟩, rfl⟩
    exact ⟨start, stop, hpair, Int.ofNat_lt.2 hlow, Int.ofNat_le.2 hhigh, rfl⟩

end Bracket

namespace Program

variable {p : Program} {base i : Int}

/-- a forward scan, with the index counted from where the sequence begins -/
theorem scanForward_least (hbal : Balanced p.commands.toList) (hb : BeginsAt p.commands base) (hlow : base - 1 ≤ i)
    (hhigh : i < base + p.length) :
    IsLeastIfAny (endsAround p.commands.toList (i - base)) ((p.scanForward i).map (· - base)) := by
  obtain ⟨k, hk⟩ := Int.eq_ofNat_of_zero_le (show 0 ≤ i - base + 1 by omega)
  have hsize : k ≤ p.commands.size := by
    rw [length] at hhigh
    omega
  have hgap := scanForwardFrom_gap hbal hb hsize
  rw [← endsAround_eq p.commands.toList hk, show base + k - 1 = i by omega] at hgap
  exact hgap

/-- a backward scan, with the index counted from where the sequence begins -/
theorem scanBackward_greatest (hbal : Balanced p.commands.toList) (hb : BeginsAt p.commands base) (hlow : base ≤ i)
    (hhigh : i ≤ base + p.length) :
    IsGreatestIfAny (startsAround p.commands.toList (i - base)) ((p.scanBackward i).map (· - base)) := by
  obtain ⟨k, hk⟩ := Int.eq_ofNat_of_zero_le (show 0 ≤ i - base by omega)
  have hsize : k ≤ p.commands.size := by
    rw [length] at hhigh
    omega
  have hgap := scanBackwardFrom_gap hbal hb hsize
  rw [← startsAround_eq, ← hk, add_sub_cancel] at hgap
  exact hgap

theorem scanForward_of_outside (h : i < -p.length - 1 ∨ p.length ≤ i + 1) : p.scanForward i = none := by
  refine scanForwardFrom_of_none (commandAt_eq_none_iff.2 ?_)
  rw [length] at h
  omega

theorem scanBackward_of_outside (h : i < 1 - p.length ∨ p.length < i) : p.scanBackward i = none := by
  refine scanBackwardFrom_of_none (commandAt_eq_none_iff.2 ?_)
  rw [length] at h
  omega

/-- an index that is too long for a word is outside of every program -/
theorem outside_of_not_fitsWord (hlength : p.length < 2 ^ 63) (h : fitsWord 64 i = false) :
    i < -p.length ∨ p.length ≤ i := by
  by_contra hin
  rw [not_or, Int.not_lt, Int.not_le] at hin
  have hlow : -2 ^ 63 ≤ i := by omega
  have hhigh : i < 2 ^ 63 := by omega
  rw [fitsWord_iff.2 ⟨hlow, hhigh⟩] at h
  cases h

/-- the scan that words its error answers as the scans do -/
theorem toOption_scan (hlength : p.length < 2 ^ 63) (forward : Bool) (i : Int) :
    (p.scan forward i).toOption = if forward then p.scanForward i else p.scanBackward i := by
  have helim : ∀ found : Option Int, (found.elim (.error .outside) .ok : Except ScanError Int).toOption = found := by
    intro found
    cases found <;> rfl
  cases forward with
  | true =>
    cases hword : fitsWord 64 (i + 1) with
    | true => simp [scan, hword, helim]
    | false =>
      have hout := outside_of_not_fitsWord hlength hword
      have hnone : p.scanForward i = none := scanForward_of_outside (by omega)
      simp [scan, hword, hnone, Except.toOption]
  | false =>
    cases hword : fitsWord 64 (i - 1) with
    | true => simp [scan, hword, helim]
    | false =>
      have hout := outside_of_not_fitsWord hlength hword
      have hnone : p.scanBackward i = none := scanBackward_of_outside (by omega)
      simp [scan, hword, hnone, Except.toOption]

end Program

/-- **A scan finds the innermost loop.** Of a program that can be parsed both scans are over after twice its length and
one more look, wherever they begin. A forward scan answers with the least loop end among the loops around its index, a
backward scan with the greatest loop start; they find nothing if there is no such loop. A negative index counts from
the end, and so does then the answer; further out there is nothing to find. From a bracket the answer is its partner,
and a backward scan that begins at no negative index does not answer with one. -/
theorem scans_find_innermost_loops (source : Script) (precompute : Bool) (p : Program)
    (hp : Program.parse source precompute = .ok p) :
    let commands := p.commands.toList
    let n : Int := p.length
    (∀ i, scanForwardWithin p.commands (2 * p.length + 1) 0 i = some (p.scanForward i) ∧
      scanBackwardWithin p.commands (2 * p.length + 1) 0 i = some (p.scanBackward i)) ∧
    (∀ i, -1 ≤ i → IsLeastIfAny (endsAround commands i) (p.scanForward i)) ∧
    (∀ i, -n - 1 ≤ i → i < -1 → IsLeastIfAny (endsAround commands (i + n)) ((p.scanForward i).map (· + n))) ∧
    (∀ i, i < -n - 1 → p.scanForward i = none) ∧
    (∀ i, 0 ≤ i → IsGreatestIfAny (startsAround commands i) (p.scanBackward i)) ∧
    (∀ i, -n ≤ i → i < 0 → IsGreatestIfAny (startsAround commands (i + n)) ((p.scanBackward i).map (· + n))) ∧
    (∀ i, i < -n → p.scanBackward i = none) ∧
    (∀ start stop, Pair commands start stop → p.scanForward start = some stop ∧ p.scanBackward stop = some start) ∧
    (∀ i o, 0 ≤ i → p.scanBackward i = some o → 0 ≤ o) ∧
    (n < 2 ^ 63 → ∀ forward i,
      (p.scan forward i).toOption = if forward then p.scanForward i else p.scanBackward i) := by
  intro commands n
  have hbal : Balanced commands := (Program.wellFormed_of_parse hp).balanced
  have hlength : (commands.length : Int) = n := congrArg Nat.cast Array.length_toList
  have hforward : ∀ i, -1 ≤ i → IsLeastIfAny (endsAround commands i) (p.scanForward i) := by
    intro i hi
    by_cases hin : i < n
    · simpa using Program.scanForward_least hbal (.inl rfl) (by simpa using hi) (by simpa using hin)
    · rw [Program.scanForward_of_outside (by omega)]
      refine Set.eq_empty_of_forall_notMem ?_
      rintro c ⟨start, stop, hpair, -, hlt, -⟩
      have := hpair.lt_length
      omega
  have hbackward : ∀ i, 0 ≤ i → IsGreatestIfAny (startsAround commands i) (p.scanBackward i) := by
    intro i hi
    by_cases hin : i ≤ n
    · simpa using Program.scanBackward_greatest hbal (.inl rfl) hi (by simpa using hin)
    · rw [Program.scanBackward_of_outside (by omega)]
      refine Set.eq_empty_of_forall_notMem ?_
      rintro c ⟨start, stop, hpair, -, hle, -⟩
      have := hpair.lt_length
      omega
  refine ⟨scansWithin_eq p.commands 0, hforward, fun i hlow hhigh => ?_,
    fun i hi => Program.scanForward_of_outside (.inl hi), hbackward, fun i hlow hhigh => ?_,
    fun i hi => Program.scanBackward_of_outside (by omega), ?_, ?_, fun hn => Program.toOption_scan (by omega)⟩
  · have hleast : IsLeastIfAny (endsAround commands (i - -n)) ((p.scanForward i).map (· - -n)) :=
      Program.scanForward_least hbal (.inr rfl) hlow (by omega)
    simpa only [sub_neg_eq_add] using hleast
  · have hgreatest : IsGreatestIfAny (startsAround commands (i - -n)) ((p.scanBackward i).map (· - -n)) :=
      Program.scanBackward_greatest hbal (.inr rfl) hlow (by omega)
    simpa only [sub_neg_eq_add] using hgreatest
  · exact fun start stop hpair => ⟨Program.scanForward_pair hpair, Program.scanBackward_pair hpair⟩
  · intro i o hi ho
    have hgreatest := hbackward i hi
    rw [ho] at hgreatest
    obtain ⟨start, stop, -, -, -, rfl⟩ := hgreatest.1
    exact Int.natCast_nonneg start

/-- two loops, one in the other: between them a scan finds the outer one, inside both, with the index counted from the
end, the inner one; in front of both it reads the whole program again from its end, and finds nothing -/
theorem scans_find_innermost_loops_nested : ∃ p, Program.parse (.text "+[-[.]<]") false = .ok p ∧
    IsLeast (endsAround p.commands.toList 2) 7 ∧ p.scanForward (-5) = some (-3) ∧
    startsAround p.commands.toList 1 = ∅ ∧ scanBackwardWithin p.commands 9 0 1 = none ∧ p.scanBackward 1 = none := by
  obtain ⟨hlooks, hforward, -, -, hbackward, -⟩ := scans_find_innermost_loops (.text "+[-[.]<]") false _ rfl
  have houter := Option.some.inj ((hlooks 2).1.symm.trans (show _ = some (some 7) by decide))
  have hinner := Option.some.inj ((hlooks (-5)).1.symm.trans (show _ = some (some (-3)) by decide))
  have hfront := Option.some.inj ((hlooks 1).2.symm.trans (show _ = some none by decide))
  have hends := hforward 2 (by decide)
  have hstarts := hbackward 1 (by decide)
  rw [houter] at hends
  rw [hfront] at hstarts
  exact ⟨_, rfl, hends, hinner, hstarts, by decide, hfront⟩

end Brainfuck
