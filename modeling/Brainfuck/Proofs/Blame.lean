/-
Which bracket is blamed for a text that does not parse, and where it stands.

- `depth cs p`: the loop starts less the loop ends in front of an offset.
- A stray loop end is blamed at the least offset behind which the depth is negative; otherwise the earliest loop start
  that is never closed (`NeverClosed`) is blamed, and the depth in front of it is zero. `Program.parse_outcome` cuts a
  text at the bracket that is blamed: what stands in front of it is balanced.
- `Place.Marks`: what the line and the column of an offset say, and how the offset is got back from them.
- `parse_blames`: all of it, for every text and for bytes.
-/
import Brainfuck.Error
import Brainfuck.Proofs.Parsing
import Brainfuck.Proofs.Utf8
import Brainfuck.Text.Lines

namespace Brainfuck

open Brainfuck.Bracket

/-! ## Depth -/

/-- the loop starts less the loop ends in front of an offset -/
def depth (cs : List Char) (p : Nat) : Int := (cs.take p).count '[' - (cs.take p).count ']'

theorem commandsOf_append (a b : List Char) : commandsOf (a ++ b) = commandsOf a ++ commandsOf b :=
  List.filterMap_append

theorem count_commandsOf (c : Command) (cs : List Char) : (commandsOf cs).count c = cs.count c.char := by
  induction cs with
  | nil => rfl
  | cons a cs ih =>
    rw [← List.singleton_append, commandsOf_append, List.count_append, List.count_append, ih]
    congr 1
    by_cases ha : a = c.char
    · subst ha
      simp [commandsOf]
    · have hnot : c ∉ commandsOf [a] := by
        intro hmem
        obtain ⟨b, hb, hc⟩ := List.mem_filterMap.1 hmem
        rw [List.mem_singleton] at hb
        exact ha (hb ▸ Command.ofChar?_eq_some_iff.1 hc)
      rw [List.count_eq_zero_of_not_mem hnot, List.count_eq_zero_of_not_mem (by simpa using Ne.symm ha)]

/-- no prefix has more loop ends than loop starts -/
def NeverBelow (commands : List Command) : Prop :=
  ∀ front back, commands = front ++ back → front.count .loopEnd ≤ front.count .loopStart

theorem Balanced.neverBelow {commands : List Command} (h : Balanced commands) : NeverBelow commands := by
  rintro front back rfl
  exact h.count_prefix_le

theorem NeverBelow.append {a b : List Command} (ha : NeverBelow a) (hb : NeverBelow b) : NeverBelow (a ++ b) := by
  intro front back h
  rcases List.append_eq_append_iff.1 h with ⟨x, rfl, rfl⟩ | ⟨x, rfl, -⟩
  · have := ha a [] (by simp)
    have := hb x back rfl
    simp only [List.count_append]
    omega
  · exact ha front x rfl

theorem NeverBelow.cons_loopStart {a : List Command} (h : NeverBelow a) : NeverBelow (.loopStart :: a) := by
  intro front back hsplit
  rcases front with _ | ⟨c, front⟩
  · exact Nat.le_refl _
  · simp only [List.cons_append, List.cons.injEq] at hsplit
    obtain ⟨rfl, hsplit⟩ := hsplit
    have := h front back hsplit
    simp only [List.count_cons_self, List.count_cons_of_ne (show Command.loopStart ≠ .loopEnd by decide)]
    omega

theorem depth_eq_of_append {a b : List Char} {q : Nat} (hq : q ≤ a.length) : depth (a ++ b) q = depth a q := by
  rw [depth, List.take_append_of_le_length hq, depth]

theorem depth_nonneg {cs : List Char} (h : NeverBelow (commandsOf cs)) (q : Nat) : 0 ≤ depth cs q := by
  have hsplit : commandsOf cs = commandsOf (cs.take q) ++ commandsOf (cs.drop q) := by
    rw [← commandsOf_append, List.take_append_drop]
  have hle := h _ _ hsplit
  rw [count_commandsOf, count_commandsOf] at hle
  have : (cs.take q).count ']' ≤ (cs.take q).count '[' := hle
  simp only [depth]
  omega

theorem depth_length {cs : List Char} (h : Balanced (commandsOf cs)) : depth cs cs.length = 0 := by
  have heq := h.count_eq
  rw [count_commandsOf, count_commandsOf] at heq
  have : cs.count '[' = cs.count ']' := heq
  rw [depth, List.take_length]
  omega

/-- behind a balanced text and one more bracket -/
theorem depth_behind {a b : List Char} (ha : Balanced (commandsOf a)) (c : Char) (r : Nat) :
    depth (a ++ c :: b) (a.length + 1 + r) = depth [c] 1 + depth b r := by
  have hzero := depth_length ha
  rw [depth, List.take_length] at hzero
  have htake : (a ++ c :: b).take (a.length + 1 + r) = a ++ ([c] ++ b.take r) := by
    rw [Nat.add_assoc, List.take_length_add_append, Nat.add_comm 1 r, List.take_succ_cons, List.singleton_append]
  rw [depth, htake]
  simp only [depth, List.count_append, List.take_succ_cons, List.take_nil]
  omega

/-! ## The bracket that is blamed -/

/-- a loop start stands at the offset, and everything behind it is deeper -/
structure NeverClosed (cs : List Char) (p : Nat) : Prop where
  start : cs[p]? = some '['
  deeper : ∀ q, p < q → q ≤ cs.length → depth cs p < depth cs q

theorem isLeast_stray {a b : List Char} (ha : Balanced (commandsOf a)) :
    IsLeast {q | depth (a ++ ']' :: b) (q + 1) < 0} a.length := by
  constructor
  · have hend : depth [']'] 1 = -1 := by decide
    have hnone : depth b 0 = 0 := rfl
    change depth (a ++ ']' :: b) (a.length + 1 + 0) < 0
    rw [depth_behind ha, hend, hnone]
    decide
  · intro q hq
    by_contra hlt
    have hle : q + 1 ≤ a.length := Nat.lt_of_not_le hlt
    have hnonneg := depth_nonneg ha.neverBelow (q + 1)
    rw [← depth_eq_of_append (b := ']' :: b) hle] at hnonneg
    exact absurd hq (Int.not_lt.2 hnonneg)

section Open

variable {a b : List Char}

theorem depth_open (ha : Balanced (commandsOf a)) : depth (a ++ '[' :: b) a.length = 0 := by
  rw [depth_eq_of_append (Nat.le_refl _), depth_length ha]

theorem depth_open_pos (ha : Balanced (commandsOf a)) (hb : NeverBelow (commandsOf b)) {q : Nat} (hq : a.length < q) :
    0 < depth (a ++ '[' :: b) q := by
  obtain ⟨r, rfl⟩ := Nat.exists_eq_add_of_le (Nat.succ_le_of_lt hq)
  have hone : depth ['['] 1 = 1 := by decide
  have hnonneg := depth_nonneg hb r
  rw [Nat.succ_eq_add_one, depth_behind ha, hone]
  omega

theorem depth_open_nonneg (ha : Balanced (commandsOf a)) (hb : NeverBelow (commandsOf b)) (q : Nat) :
    0 ≤ depth (a ++ '[' :: b) q := by
  by_cases hq : q ≤ a.length
  · rw [depth_eq_of_append hq]
    exact depth_nonneg ha.neverBelow q
  · exact Int.le_of_lt (depth_open_pos ha hb (Nat.lt_of_not_le hq))

theorem isLeast_open (ha : Balanced (commandsOf a)) (hb : NeverBelow (commandsOf b)) :
    IsLeast {q | NeverClosed (a ++ '[' :: b) q} a.length := by
  constructor
  · refine ⟨by simp, fun q hq _ => ?_⟩
    rw [depth_open ha]
    exact depth_open_pos ha hb hq
  · intro q hq
    by_contra hlt
    -- the depth is zero again in front of the open loop start, so nothing in front of it stays open
    have hless := hq.deeper a.length (Nat.lt_of_not_le hlt) (by simp)
    have hnonneg := depth_open_nonneg ha hb q
    rw [depth_open ha] at hless
    omega

end Open

/-! ## What parsing comes to -/

/-- cut a text at one of its commands -/
theorem exists_cut {cs : List Char} {front back : List Command} {c : Command}
    (h : commandsOf cs = front ++ c :: back) :
    ∃ a b, cs = a ++ c.char :: b ∧ commandsOf a = front ∧ commandsOf b = back := by
  obtain ⟨a, rest, rfl, ha, hrest⟩ := List.filterMap_eq_append_iff.1 h
  obtain ⟨gap, x, b, rfl, hgap, hx, hb⟩ := List.filterMap_eq_cons_iff.1 hrest
  refine ⟨a ++ gap, b, ?_, ?_, hb⟩
  · rw [Command.ofChar?_eq_some_iff.1 hx, List.append_assoc]
  · have hnone : commandsOf gap = [] := List.filterMap_eq_nil_iff.2 hgap
    rw [commandsOf_append, hnone, List.append_nil]
    exact ha

theorem Program.length_offsets (cs : List Char) : (offsets cs).length = (commandsOf cs).length := by
  rw [offsets, List.length_map, ← map_snd_located, List.length_map]

/-- the offset of a command is the length of the text in front of it -/
theorem Program.getElem?_offsets (a b : List Char) (c : Command) :
    (offsets (a ++ c.char :: b))[(commandsOf a).length]? = some a.length := by
  have hsplit : offsets (a ++ c.char :: b) = offsets a ++ a.length ::
      ((b.zipIdx (a.length + 1)).filterMap fun x => (Command.ofChar? x.1).map (x.2, ·)).map Prod.fst := by
    simp [offsets, located, List.zipIdx_append]
  rw [hsplit, ← length_offsets, List.getElem?_append_right (Nat.le_refl _), Nat.sub_self]
  rfl

theorem Program.getD_offsets (a b : List Char) (c : Command) :
    (offsets (a ++ c.char :: b)).getD (commandsOf a).length 0 = a.length := by
  rw [List.getD_eq_getElem?_getD, getElem?_offsets, Option.getD_some]

namespace Bracket

/-- reading stops at a loop end when nothing is open, that is, behind a balanced part -/
theorem Reads.exists_of_error {pre rest : List Command} {l : Links} {index : Nat} (h : Reads pre l)
    (hlen : pre.length + rest.length ≤ l.table.size) (hr : Bracket.linkFrom pre.length l rest = .error index) :
    ∃ front back, rest = front ++ .loopEnd :: back ∧ index = (pre ++ front).length ∧ Balanced (pre ++ front) := by
  induction rest generalizing pre l with
  | nil => cases hr
  | cons c rest ih =>
    rw [List.length_cons] at hlen
    rw [Bracket.linkFrom] at hr
    cases hread : l.read pre.length c with
    | none =>
      rw [hread] at hr
      cases hr
      obtain ⟨rfl, hpending⟩ : c = .loopEnd ∧ l.pending = [] := by
        unfold Links.read at hread
        split at hread
        · cases hread
        · split at hread
          · exact ⟨rfl, ‹_›⟩
          · cases hread
        · cases hread
      have hopen := h.pending
      rw [hpending] at hopen
      cases hopen with
      | closed hb => exact ⟨[], rest, rfl, by simp, by simpa using hb⟩
    | some l' =>
      rw [hread] at hr
      have hsize : (pre ++ [c]).length + rest.length ≤ l'.table.size := by
        rw [size_table_of_read hread, List.length_append, List.length_singleton]
        omega
      obtain ⟨front, back, rfl, hindex, hb⟩ := ih (h.read (by omega) hread) hsize (by simpa using hr)
      exact ⟨c :: front, back, rfl, by simpa using hindex, by simpa using hb⟩

theorem exists_of_link_error {commands : List Command} {index : Nat} (h : link commands = .error index) :
    ∃ front back, commands = front ++ .loopEnd :: back ∧ index = front.length ∧ Balanced front := by
  have hlen : ([] : List Command).length + commands.length ≤ (Links.empty commands.length).table.size := by
    simp [Links.empty]
  simpa using (reads_empty commands.length).exists_of_error hlen h

/-- the outermost loop that is open begins behind a balanced part, and nothing behind it closes it -/
theorem Pending.exists_of_getLast? {pre : List Command} {pending : List Nat} {index : Nat} (h : Pending pre pending)
    (hlast : pending.getLast? = some index) :
    ∃ front back, pre = front ++ .loopStart :: back ∧ index = front.length ∧ Balanced front ∧ NeverBelow back := by
  induction h with
  | closed => cases hlast
  | @opened pre body pending hpre hbody ih =>
    rcases pending with _ | ⟨next, pending⟩
    · cases hpre with
      | closed hb =>
        cases hlast
        exact ⟨pre, body, rfl, rfl, hb, hbody.neverBelow⟩
    · rw [List.getLast?_cons_cons] at hlast
      obtain ⟨front, back, rfl, hindex, hfront, hback⟩ := ih hlast
      have hinner : NeverBelow (.loopStart :: body) := hbody.neverBelow.cons_loopStart
      exact ⟨front, back ++ .loopStart :: body, by simp, hindex, hfront, hback.append hinner⟩

end Bracket

/-- a text is a program, or it is cut at the bracket that is blamed -/
theorem Program.parse_outcome (source : Script) (precompute : Bool) :
    (∃ p, parse source precompute = .ok p) ∧ Balanced (commandsOf source.chars) ∨
    (∃ a b, source.chars = a ++ ']' :: b ∧ Balanced (commandsOf a) ∧
      parse source precompute = .error ⟨.loopEnd, .of source.chars a.length⟩) ∨
    ∃ a b, source.chars = a ++ '[' :: b ∧ Balanced (commandsOf a) ∧ NeverBelow (commandsOf b) ∧
      parse source precompute = .error ⟨.loopStart, .of source.chars a.length⟩ := by
  cases hl : link (commandsOf source.chars) with
  | error index =>
    obtain ⟨front, back, hcommands, rfl, hb⟩ := exists_of_link_error hl
    obtain ⟨a, b, hcs, rfl, rfl⟩ := exists_cut hcommands
    refine .inr (.inl ⟨a, b, hcs, hb, ?_⟩)
    have hoffset := getD_offsets a b .loopEnd
    rw [← hcs] at hoffset
    simp only [parse, hl, unmatched, hoffset]
  | ok l =>
    cases hlast : l.pending.getLast? with
    | none =>
      have hpending : l.pending = [] := List.getLast?_eq_none_iff.1 hlast
      exact .inl ⟨⟨_, parse_eq_ok_iff.2 ⟨l, hl, hpending, rfl⟩⟩, balanced_iff_link.2 ⟨l, hl, hpending⟩⟩
    | some index =>
      obtain ⟨front, back, hcommands, rfl, hb, hback⟩ := (reads_link hl).pending.exists_of_getLast? hlast
      obtain ⟨a, b, hcs, rfl, rfl⟩ := exists_cut hcommands
      refine .inr (.inr ⟨a, b, hcs, hb, hback, ?_⟩)
      have hoffset := getD_offsets a b .loopStart
      rw [← hcs] at hoffset
      simp only [parse, hl, hlast, unmatched, hoffset]

/-! ## Lines and columns -/

/-- a line feed begins a new line -/
theorem cutAt_append_lineFeed (a b : List Char) : cutAt '\n' (a ++ '\n' :: b) = cutAt '\n' a ++ cutAt '\n' b := by
  induction a with
  | nil =>
    obtain ⟨piece, pieces, hb⟩ := exists_cons_cutAt '\n' b
    simp [cutAt, hb]
  | cons c a ih =>
    obtain ⟨piece, pieces, ha⟩ := exists_cons_cutAt '\n' a
    rw [ha, List.cons_append] at ih
    rw [List.cons_append, cutAt, cutAt, ih, ha]
    simp only
    split <;> rfl

theorem length_cutAt (cs : List Char) : (cutAt '\n' cs).length = cs.count '\n' + 1 := by
  induction cs with
  | nil => rfl
  | cons c cs ih =>
    obtain ⟨piece, pieces, hcs⟩ := exists_cons_cutAt '\n' cs
    rw [hcs, List.length_cons] at ih
    by_cases hc : c = '\n'
    · subst hc
      simp only [cutAt, hcs, if_true, List.length_cons, List.count_cons_self]
      omega
    · simp only [cutAt, hcs, if_neg hc, List.length_cons, List.count_cons_of_ne hc]
      omega

/-- the lines, with a line feed behind each, are as long as the text with one line feed more -/
theorem sum_length_cutAt (cs : List Char) : ((cutAt '\n' cs).map fun line => line.length + 1).sum = cs.length + 1 := by
  induction cs with
  | nil => rfl
  | cons c cs ih =>
    obtain ⟨piece, pieces, hcs⟩ := exists_cons_cutAt '\n' cs
    rw [hcs, List.map_cons, List.sum_cons] at ih
    by_cases hc : c = '\n'
    · simp only [cutAt, hcs, if_pos hc, List.map_cons, List.sum_cons, List.length_nil, List.length_cons]
      omega
    · simp only [cutAt, hcs, if_neg hc, List.map_cons, List.sum_cons, List.length_cons]
      omega

/-- what is read of the last line of a text -/
theorem exists_lastLine (cs : List Char) : ∃ front line, cs = front ++ line ∧ '\n' ∉ line ∧
    (front = [] ∨ ∃ above, front = above ++ ['\n']) ∧ (cs.reverse.takeWhile (· ≠ '\n')).length = line.length := by
  let isText := fun c : Char => decide (c ≠ '\n')
  refine ⟨(cs.reverse.dropWhile isText).reverse, (cs.reverse.takeWhile isText).reverse, ?_, ?_, ?_, ?_⟩
  · rw [← List.reverse_append, List.takeWhile_append_dropWhile, List.reverse_reverse]
  · intro hmem
    have htext := List.all_eq_true.1 (List.all_takeWhile (p := isText) (l := cs.reverse)) _ (List.mem_reverse.1 hmem)
    simp [isText] at htext
  · cases hrest : cs.reverse.dropWhile isText with
    | nil => exact .inl rfl
    | cons c rest =>
      have hc : isText c = false := by
        have hhead := List.head_dropWhile_not isText (l := cs.reverse) (by simp [hrest])
        simpa [hrest] using hhead
      obtain rfl : c = '\n' := by simpa [isText] using hc
      exact .inr ⟨rest.reverse, by simp⟩
  · rw [List.length_reverse]

namespace Place

/-- the line that an offset stands in begins at `start` -/
structure BeginsLine (cs : List Char) (start position : Nat) : Prop where
  le : start ≤ position
  first : start = 0 ∨ cs[start - 1]? = some '\n'
  unbroken : ∀ i, start ≤ i → i < position → cs[i]? ≠ some '\n'

/-- the line and the column are those of the offset, and the offset is got back from them -/
structure Marks (cs : List Char) (place : Place) : Prop where
  line : place.line = (cs.take place.position).count '\n' + 1
  column : ∃ start, BeginsLine cs start place.position ∧ place.column = place.position - start + 1
  recovered : place.position =
    (((cutAt '\n' cs).take (place.line - 1)).map fun line => line.length + 1).sum + (place.column - 1)

theorem marks_of {cs : List Char} {position : Nat} (h : position ≤ cs.length) : (Place.of cs position).Marks cs := by
  obtain ⟨front, line, hsplit, hline, hfront, hcolumn⟩ := exists_lastLine (cs.take position)
  have hposition : position = front.length + line.length := by
    rw [← List.length_append, ← hsplit, List.length_take_of_le h]
  have hcs : cs = front ++ (line ++ cs.drop position) := by
    rw [← List.append_assoc, ← hsplit, List.take_append_drop]
  have hcolumn' : (Place.of cs position).column = line.length + 1 := congrArg (· + 1) hcolumn
  have hcount : (cs.take position).count '\n' = front.count '\n' := by
    rw [hsplit, List.count_append, List.count_eq_zero_of_not_mem hline, Nat.add_zero]
  refine ⟨rfl, ⟨front.length, ⟨?_, ?_, ?_⟩, ?_⟩, ?_⟩
  · exact hposition ▸ Nat.le_add_right _ _
  · rcases hfront with rfl | ⟨above, rfl⟩
    · exact .inl rfl
    · right
      rw [hcs]
      simp
  · intro i hi hlt hbreak
    have hmem : (line ++ cs.drop position)[i - front.length]? = some '\n' := by
      rw [hcs, List.getElem?_append_right hi] at hbreak
      exact hbreak
    have hlt' : i - front.length < line.length := by
      have : i < position := hlt
      omega
    rw [List.getElem?_append_left hlt'] at hmem
    exact hline (List.mem_of_getElem? hmem)
  · rw [hcolumn']
    change line.length + 1 = position - front.length + 1
    omega
  · have hsum : (((cutAt '\n' cs).take (front.count '\n')).map fun line => line.length + 1).sum = front.length := by
      rcases hfront with rfl | ⟨above, rfl⟩
      · rfl
      · have hlength : (above ++ ['\n']).count '\n' = (cutAt '\n' above).length := by
          rw [length_cutAt, List.count_append, List.count_singleton_self]
        rw [hcs, List.append_assoc, List.singleton_append, cutAt_append_lineFeed, hlength, List.take_left',
          sum_length_cutAt, List.length_append, List.length_singleton]
        rfl
    have hline' : (Place.of cs position).line - 1 = front.count '\n' := hcount
    rw [hline', hsum, hcolumn']
    exact hposition

end Place

/-! ## Errors -/

/-- the character of the bracket -/
def Unmatched.char : Unmatched → Char
  | .loopStart => '['
  | .loopEnd => ']'

/-- parsing fails with an error of this kind at this offset -/
def Blames (source : Script) (precompute : Bool) (kind : ErrorKind) (p : Nat) : Prop :=
  ∃ e, Program.parse source precompute = .error e ∧ e.kind = kind ∧ e.place.position = p

section Blames

variable {source : Script} {precompute : Bool} {p : Nat}

theorem blames_iff {e : ParseError} (h : Program.parse source precompute = .error e) (kind : ErrorKind) :
    Blames source precompute kind p ↔ e.kind = kind ∧ e.place.position = p := by
  constructor
  · rintro ⟨e', he, hkind⟩
    rw [h, Except.error.injEq] at he
    exact he ▸ hkind
  · intro hkind
    exact ⟨e, h, hkind⟩

theorem not_blames {program : Program} (h : Program.parse source precompute = .ok program) (kind : ErrorKind) :
    ¬ Blames source precompute kind p := by
  rintro ⟨e, he, -⟩
  rw [h] at he
  cases he

theorem blames_loopEnd_iff :
    Blames source precompute .unmatchedCloseBracket p ↔ IsLeast {q | depth source.chars (q + 1) < 0} p := by
  rcases Program.parse_outcome source precompute with ⟨⟨_, hp⟩, hb⟩ | ⟨a, b, hcs, ha, he⟩ | ⟨a, b, hcs, ha, hb, he⟩
  · refine iff_of_false (not_blames hp _) fun h => ?_
    exact absurd h.1 (Int.not_lt.2 (depth_nonneg hb.neverBelow (p + 1)))
  · have hleast := isLeast_stray (b := b) ha
    rw [← hcs] at hleast
    rw [blames_iff he]
    constructor
    · rintro ⟨-, rfl⟩
      exact hleast
    · intro h
      exact ⟨rfl, hleast.unique h⟩
  · rw [blames_iff he]
    refine iff_of_false (by rintro ⟨⟨⟩, -⟩) fun h => ?_
    have hnonneg := depth_open_nonneg ha hb (p + 1)
    rw [← hcs] at hnonneg
    exact absurd h.1 (Int.not_lt.2 hnonneg)

theorem blames_loopStart_iff :
    Blames source precompute .unmatchedOpenBracket p ↔
      (∀ q, 0 ≤ depth source.chars q) ∧ IsLeast {q | NeverClosed source.chars q} p := by
  rcases Program.parse_outcome source precompute with ⟨⟨_, hp⟩, hb⟩ | ⟨a, b, hcs, ha, he⟩ | ⟨a, b, hcs, ha, hb, he⟩
  · refine iff_of_false (not_blames hp _) fun ⟨hnonneg, hopen, _⟩ => ?_
    have hlt : p < source.chars.length := (List.getElem?_eq_some_iff.1 hopen.start).1
    have hless := hopen.deeper _ hlt (Nat.le_refl _)
    rw [depth_length hb] at hless
    exact absurd hless (Int.not_lt.2 (hnonneg p))
  · rw [blames_iff he]
    refine iff_of_false (by rintro ⟨⟨⟩, -⟩) fun ⟨hnonneg, _⟩ => ?_
    have hleast := isLeast_stray (b := b) ha
    rw [← hcs] at hleast
    exact absurd hleast.1 (Int.not_lt.2 (hnonneg _))
  · have hleast := isLeast_open ha hb
    have hnonneg := depth_open_nonneg ha hb
    rw [← hcs] at hleast hnonneg
    rw [blames_iff he]
    constructor
    · rintro ⟨-, rfl⟩
      exact ⟨hnonneg, hleast⟩
    · rintro ⟨-, h⟩
      exact ⟨rfl, hleast.unique h⟩

/-- the bracket stands at its offset, and in front of a loop start that is blamed everything is closed -/
theorem stands_of_parse_error {e : ParseError} (h : Program.parse source precompute = .error e) :
    e.place.Marks source.chars ∧ source.chars[e.place.position]? = some e.bracket.char ∧
      (e.kind = .unmatchedOpenBracket → depth source.chars e.place.position = 0) := by
  rcases Program.parse_outcome source precompute with ⟨⟨_, hp⟩, hb⟩ | ⟨a, b, hcs, ha, he⟩ | ⟨a, b, hcs, ha, hb, he⟩
  · rw [h] at hp
    cases hp
  · rw [h, Except.error.injEq] at he
    subst he
    refine ⟨Place.marks_of (by simp [hcs]), ?_, by rintro ⟨⟩⟩
    change source.chars[a.length]? = some ']'
    simp [hcs]
  · rw [h, Except.error.injEq] at he
    subst he
    refine ⟨Place.marks_of (by simp [hcs]), ?_, fun _ => ?_⟩
    · change source.chars[a.length]? = some '['
      simp [hcs]
    · change depth source.chars a.length = 0
      rw [hcs, depth_open ha]

theorem place_of_parse_error {e : ParseError} (h : Program.parse source precompute = .error e) :
    e.place = .of source.chars e.place.position := by
  rcases Program.parse_outcome source precompute with ⟨⟨_, hp⟩, -⟩ | ⟨_, _, -, -, he⟩ | ⟨_, _, -, -, -, he⟩
  · rw [h] at hp
    cases hp
  · rw [h, Except.error.injEq] at he
    rw [he]
    rfl
  · rw [h, Except.error.injEq] at he
    rw [he]
    rfl

/-- the kind of an error and its offset are all of it -/
theorem parse_of_blames {bracket : Unmatched}
    (h : Blames source precompute (ParseError.kind ⟨bracket, .of source.chars p⟩) p) :
    Program.parse source precompute = .error ⟨bracket, .of source.chars p⟩ := by
  obtain ⟨⟨bracket', place⟩, he, hkind, hp⟩ := h
  have hplace : place = .of source.chars p := hp ▸ place_of_parse_error he
  have hbracket : bracket' = bracket := by
    cases bracket' <;> cases bracket <;> first | rfl | cases hkind
  rw [he, hbracket, hplace]

theorem parse_of_stray {a b : List Char} (hcs : source.chars = a ++ ']' :: b) (ha : Balanced (commandsOf a)) :
    Program.parse source precompute = .error ⟨.loopEnd, .of source.chars a.length⟩ :=
  parse_of_blames (blames_loopEnd_iff.2 (hcs ▸ isLeast_stray ha))

theorem parse_of_open {a b : List Char} (hcs : source.chars = a ++ '[' :: b) (ha : Balanced (commandsOf a))
    (hb : NeverBelow (commandsOf b)) :
    Program.parse source precompute = .error ⟨.loopStart, .of source.chars a.length⟩ :=
  parse_of_blames (blames_loopStart_iff.2 (hcs ▸ ⟨depth_open_nonneg ha hb, isLeast_open ha hb⟩))

end Blames

/-- a character of bytes has the offset and the number of its byte -/
theorem Script.getElem?_chars_bytes (bytes : List UInt8) (i : Nat) (c : Char) :
    (Script.bytes bytes).chars[i]? = some c ↔ ∃ b, bytes[i]? = some b ∧ b.toNat = c.toNat := by
  rw [Script.chars, Utf8.oneCharPerByte, List.getElem?_map, Option.map_eq_some_iff]
  constructor
  · rintro ⟨b, hb, rfl⟩
    exact ⟨b, hb, (Utf8.toNat_ofByte b).symm⟩
  · rintro ⟨b, hb, hc⟩
    exact ⟨b, hb, by rw [hc, Char.ofNat_toNat]⟩

/-- **Bracket errors point at the right place.** A stray loop end is blamed at the least offset behind which more loops
are ended than started; if there is none, the earliest loop start that is never closed is blamed, and all in front of it
is closed. The place of the error has the line and the column of its offset, which is got back from them. Offsets of
bytes count bytes. -/
theorem parse_blames (source : Script) (precompute : Bool) :
    (∀ p, Blames source precompute .unmatchedCloseBracket p ↔ IsLeast {q | depth source.chars (q + 1) < 0} p) ∧
    (∀ p, Blames source precompute .unmatchedOpenBracket p ↔
      (∀ q, 0 ≤ depth source.chars q) ∧ IsLeast {q | NeverClosed source.chars q} p) ∧
    (∀ e, Program.parse source precompute = .error e →
      e.place.Marks source.chars ∧ source.chars[e.place.position]? = some e.bracket.char ∧
        (e.kind = .unmatchedOpenBracket → depth source.chars e.place.position = 0)) ∧
    ∀ (bytes : List UInt8), source = .bytes bytes → ∀ (i : Nat) (c : Char),
      source.chars[i]? = some c ↔ ∃ b, bytes[i]? = some b ∧ b.toNat = c.toNat := by
  refine ⟨fun p => blames_loopEnd_iff, fun p => blames_loopStart_iff, fun e he => stands_of_parse_error he, ?_⟩
  rintro bytes rfl i c
  exact Script.getElem?_chars_bytes bytes i c

/-- on the second line, the second loop start is closed and the first is not -/
theorem parse_blames_second_line : ∃ e, Program.parse (.bytes [43, 10, 91, 91, 93]) true = .error e ∧
    e.kind = .unmatchedOpenBracket ∧ e.place = ⟨2, 2, 1⟩ ∧
    NeverClosed (Script.bytes [43, 10, 91, 91, 93]).chars 2 ∧
    e.place.Marks (Script.bytes [43, 10, 91, 91, 93]).chars := by
  obtain ⟨-, hopen, hplace, -⟩ := parse_blames (.bytes [43, 10, 91, 91, 93]) true
  obtain ⟨-, hleast⟩ := (hopen 2).1 ⟨_, rfl, rfl, rfl⟩
  exact ⟨_, rfl, rfl, rfl, hleast.1, (hplace _ rfl).1⟩

end Brainfuck
