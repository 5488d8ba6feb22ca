/-
The partner of a bracket, from the table and by a scan.

A scan passes a balanced stretch without noticing (`scanForwardFrom_balanced`, `scanBackwardFrom_balanced`), so from a
bracket it ends at the partner. `Program.WellFormed` is what parsing promises: the commands are balanced, and the table,
if there is one, holds their pairs. Of such a program `partner?` gives the partner of every bracket, with a table or
without (`WellFormed.partner?_eq`).
-/
import Brainfuck.Proofs.Linking
import Brainfuck.Scan

namespace Brainfuck

open Brainfuck.Bracket

/-! ## Scans -/

/-- a signed index from which the sequence can be read: from the front, or counted from the end -/
def BeginsAt (commands : Array Command) (base : Int) : Prop := base = 0 ∨ base = -commands.size

section Scans

variable {commands : Array Command} {base : Int} {depth i : Nat} {c : Command} {body : List Command}

theorem BeginsAt.commandAt (hb : BeginsAt commands base) (h : commands.toList[i]? = some c) :
    commandAt commands (base + i) = some c := by
  have hi : i < commands.size := by
    rw [Array.getElem?_toList] at h
    exact (Array.getElem?_eq_some_iff.1 h).1
  rw [Array.getElem?_toList] at h
  rcases hb with rfl | rfl
  · simp [Brainfuck.commandAt, h]
  · have hneg : ¬ (0 : Int) ≤ -commands.size + i := by omega
    have hback : -(commands.size : Int) + i + commands.size = i := by omega
    simp only [Brainfuck.commandAt, if_neg hneg, hback, Int.toNat_natCast, h]
    simp

theorem scanForwardFrom_plain (hb : BeginsAt commands base) (h : commands.toList[i]? = some c) (hc : c.IsPlain) :
    scanForwardFrom commands depth (base + i - 1) = scanForwardFrom commands depth (base + i) := by
  have hlook := hb.commandAt h
  rw [scanForwardFrom.eq_def commands depth (base + i - 1)]
  split <;> simp_all [Command.IsPlain]

theorem scanForwardFrom_loopStart (hb : BeginsAt commands base) (h : commands.toList[i]? = some .loopStart) :
    scanForwardFrom commands depth (base + i - 1) = scanForwardFrom commands (depth + 1) (base + i) := by
  have hlook := hb.commandAt h
  rw [scanForwardFrom.eq_def commands depth (base + i - 1)]
  split <;> simp_all

theorem scanForwardFrom_loopEnd (hb : BeginsAt commands base) (h : commands.toList[i]? = some .loopEnd) :
    scanForwardFrom commands (depth + 1) (base + i - 1) = scanForwardFrom commands depth (base + i) := by
  have hlook := hb.commandAt h
  rw [scanForwardFrom.eq_def commands (depth + 1) (base + i - 1)]
  split <;> simp_all

theorem scanForwardFrom_stop (hb : BeginsAt commands base) (h : commands.toList[i]? = some .loopEnd) :
    scanForwardFrom commands 0 (base + i - 1) = some (base + i) := by
  have hlook := hb.commandAt h
  rw [scanForwardFrom.eq_def commands 0 (base + i - 1)]
  split <;> simp_all

theorem scanBackwardFrom_plain (hb : BeginsAt commands base) (h : commands.toList[i]? = some c) (hc : c.IsPlain) :
    scanBackwardFrom commands depth (base + i + 1) = scanBackwardFrom commands depth (base + i) := by
  have hlook := hb.commandAt h
  rw [scanBackwardFrom.eq_def commands depth (base + i + 1)]
  split <;> simp_all [Command.IsPlain]

theorem scanBackwardFrom_loopEnd (hb : BeginsAt commands base) (h : commands.toList[i]? = some .loopEnd) :
    scanBackwardFrom commands depth (base + i + 1) = scanBackwardFrom commands (depth + 1) (base + i) := by
  have hlook := hb.commandAt h
  rw [scanBackwardFrom.eq_def commands depth (base + i + 1)]
  split <;> simp_all

theorem scanBackwardFrom_loopStart (hb : BeginsAt commands base) (h : commands.toList[i]? = some .loopStart) :
    scanBackwardFrom commands (depth + 1) (base + i + 1) = scanBackwardFrom commands depth (base + i) := by
  have hlook := hb.commandAt h
  rw [scanBackwardFrom.eq_def commands (depth + 1) (base + i + 1)]
  split <;> simp_all

theorem scanBackwardFrom_stop (hb : BeginsAt commands base) (h : commands.toList[i]? = some .loopStart) :
    scanBackwardFrom commands 0 (base + i + 1) = some (base + i) := by
  have hlook := hb.commandAt h
  rw [scanBackwardFrom.eq_def commands 0 (base + i + 1)]
  split <;> simp_all

/-- a forward scan passes a balanced stretch -/
theorem scanForwardFrom_balanced (hb : BeginsAt commands base) (hbody : Balanced body) (depth : Nat)
    (h : Stands commands.toList i body) :
    scanForwardFrom commands depth (base + i - 1) =
      scanForwardFrom commands depth (base + (i + body.length : Nat) - 1) := by
  induction hbody generalizing i depth with
  | nil => rfl
  | @plain c body hc _ ih =>
    have hrest : scanForwardFrom commands depth (base + i) =
        scanForwardFrom commands depth (base + (i + 1 + body.length : Nat) - 1) := by
      rw [← ih depth h.tail]
      congr 1
      omega
    calc scanForwardFrom commands depth (base + i - 1)
        = scanForwardFrom commands depth (base + i) := scanForwardFrom_plain hb h.head hc
      _ = scanForwardFrom commands depth (base + (i + 1 + body.length : Nat) - 1) := hrest
      _ = scanForwardFrom commands depth (base + (i + (c :: body).length : Nat) - 1) := by
        rw [List.length_cons, Nat.add_right_comm, Nat.add_assoc]
  | @loop inner body _ _ ihi ihb =>
    have hstop := h.tail.right
    have hinner : scanForwardFrom commands (depth + 1) (base + i) =
        scanForwardFrom commands (depth + 1) (base + (i + 1 + inner.length : Nat) - 1) := by
      rw [← ihi (depth + 1) h.tail.left]
      congr 1
      omega
    have hrest : scanForwardFrom commands depth (base + (i + 1 + inner.length : Nat)) =
        scanForwardFrom commands depth (base + (i + 1 + inner.length + 1 + body.length : Nat) - 1) := by
      rw [← ihb depth hstop.tail]
      congr 1
      omega
    have hlength : (Command.loopStart :: inner ++ .loopEnd :: body).length = 1 + inner.length + 1 + body.length := by
      simp
      omega
    -- the loop start is counted, the inside passes, and the loop end takes the count back
    calc scanForwardFrom commands depth (base + i - 1)
        = scanForwardFrom commands (depth + 1) (base + i) := scanForwardFrom_loopStart hb h.head
      _ = scanForwardFrom commands (depth + 1) (base + (i + 1 + inner.length : Nat) - 1) := hinner
      _ = scanForwardFrom commands depth (base + (i + 1 + inner.length : Nat)) := scanForwardFrom_loopEnd hb hstop.head
      _ = scanForwardFrom commands depth (base + (i + 1 + inner.length + 1 + body.length : Nat) - 1) := hrest
      _ = _ := by rw [hlength]; simp only [Nat.add_assoc]

/-- a backward scan passes a balanced stretch -/
theorem scanBackwardFrom_balanced (hb : BeginsAt commands base) (hbody : Balanced body) (depth : Nat)
    (h : Stands commands.toList i body) :
    scanBackwardFrom commands depth (base + (i + body.length : Nat)) = scanBackwardFrom commands depth (base + i) := by
  induction hbody generalizing i depth with
  | nil => rfl
  | @plain c body hc _ ih =>
    calc scanBackwardFrom commands depth (base + (i + (c :: body).length : Nat))
        = scanBackwardFrom commands depth (base + (i + 1 + body.length : Nat)) := by
          rw [List.length_cons, Nat.add_right_comm, Nat.add_assoc]
      _ = scanBackwardFrom commands depth (base + (i + 1 : Nat)) := ih depth h.tail
      _ = scanBackwardFrom commands depth (base + i + 1) := by rw [Nat.cast_succ, add_assoc]
      _ = scanBackwardFrom commands depth (base + i) := scanBackwardFrom_plain hb h.head hc
  | @loop inner body _ _ ihi ihb =>
    have hstop := h.tail.right
    have hlength : (Command.loopStart :: inner ++ .loopEnd :: body).length = 1 + inner.length + 1 + body.length := by
      simp
      omega
    calc scanBackwardFrom commands depth (base + (i + (Command.loopStart :: inner ++ .loopEnd :: body).length : Nat))
        = scanBackwardFrom commands depth (base + (i + 1 + inner.length + 1 + body.length : Nat)) := by
          rw [hlength]; simp only [Nat.add_assoc]
      _ = scanBackwardFrom commands depth (base + (i + 1 + inner.length + 1 : Nat)) := ihb depth hstop.tail
      _ = scanBackwardFrom commands depth (base + (i + 1 + inner.length : Nat) + 1) := by
        rw [Nat.cast_succ, ← add_assoc]
      _ = scanBackwardFrom commands (depth + 1) (base + (i + 1 + inner.length : Nat)) :=
        scanBackwardFrom_loopEnd hb hstop.head
      _ = scanBackwardFrom commands (depth + 1) (base + (i + 1 : Nat)) := ihi (depth + 1) h.tail.left
      _ = scanBackwardFrom commands (depth + 1) (base + i + 1) := by rw [Nat.cast_succ, add_assoc]
      _ = scanBackwardFrom commands depth (base + i) := scanBackwardFrom_loopStart hb h.head

end Scans

namespace Program

theorem scanForward_pair {p : Program} {i j : Nat} (h : Pair p.commands.toList i j) :
    p.scanForward i = some (j : Int) := by
  obtain ⟨body, hb, hs, rfl⟩ := h.exists_stands
  have hpass := scanForwardFrom_balanced (.inl rfl) hb 0 hs.tail.left
  rw [scanForwardFrom_stop (.inl rfl) hs.tail.right.head] at hpass
  rw [zero_add, zero_add, Nat.cast_succ, add_sub_cancel_right] at hpass
  rw [scanForward, hpass, Nat.add_right_comm]

theorem scanBackward_pair {p : Program} {i j : Nat} (h : Pair p.commands.toList i j) :
    p.scanBackward j = some (i : Int) := by
  obtain ⟨body, hb, hs, rfl⟩ := h.exists_stands
  have hpass := scanBackwardFrom_balanced (.inl rfl) hb 0 hs.tail.left
  have hstop := scanBackwardFrom_stop (.inl rfl) hs.head
  rw [zero_add] at hstop
  rw [zero_add, zero_add, Nat.cast_succ, hstop] at hpass
  rw [scanBackward, ← hpass, Nat.add_right_comm]

/-! ## Well-formed programs -/

/-- the brackets pair up, and the table holds the pairs -/
structure WellFormed (p : Program) : Prop where
  balanced : Balanced p.commands.toList
  table : ∀ table, p.table = some table → ∀ i j, table[i]? = some (some j) ↔ Partners p.commands.toList i j

/-- a bracket finds its partner, in the table or by a scan -/
theorem WellFormed.partner?_eq {p : Program} (hp : p.WellFormed) {i j : Nat} (h : Partners p.commands.toList i j) :
    p.partner? i = some j := by
  unfold partner?
  split
  · rename_i table ht
    rw [((hp.table table ht) i j).2 h]
    rfl
  · rcases h with h | h
    · have hstart : p.commands[i]? = some .loopStart := by rw [← Array.getElem?_toList]; exact h.start
      rw [hstart]
      simp only [scanForward_pair h]
      rfl
    · have hstop : p.commands[i]? = some .loopEnd := by rw [← Array.getElem?_toList]; exact h.stop
      rw [hstop]
      simp only [scanBackward_pair h]
      rfl

/-- what parsing comes to: everything closes, and the table is the one of the links -/
theorem parse_eq_ok_iff {source : Script} {precompute : Bool} {p : Program} :
    parse source precompute = .ok p ↔ ∃ l, link (commandsOf source.chars) = .ok l ∧ l.pending = [] ∧
      p = ⟨(commandsOf source.chars).toArray, (offsets source.chars).toArray,
        if precompute then some l.table else none⟩ := by
  unfold parse
  simp only
  split
  · rename_i hl
    simp [hl]
  · rename_i l hl
    cases hlast : l.pending.getLast? with
    | none =>
      rw [List.getLast?_eq_none_iff] at hlast
      simp [hl, hlast, eq_comm]
    | some k =>
      have : l.pending ≠ [] := by rintro h; simp [h] at hlast
      simp [hl, this]

theorem wellFormed_of_parse {source : Script} {precompute : Bool} {p : Program} (h : parse source precompute = .ok p) :
    p.WellFormed := by
  obtain ⟨l, hl, hpending, rfl⟩ := parse_eq_ok_iff.1 h
  refine ⟨balanced_iff_link.2 ⟨l, hl, hpending⟩, fun table ht i j => ?_⟩
  cases precompute
  · cases ht
  · cases ht
    exact (reads_link hl).table i j

theorem WellFormed.withTable {p : Program} (hp : p.WellFormed) : p.withTable.WellFormed := by
  unfold Program.withTable
  split
  · exact hp
  · split
    · rename_i l hl
      refine ⟨hp.balanced, fun table ht => ?_⟩
      cases ht
      exact (reads_link hl).table
    · exact hp

@[simp] theorem commands_withTable (p : Program) : p.withTable.commands = p.commands := by
  unfold withTable
  split
  · rfl
  · split <;> rfl

theorem commands_ite_withTable (p : Program) (b : Bool) : (if b then p.withTable else p).commands = p.commands := by
  cases b
  · rfl
  · exact p.commands_withTable

end Program

end Brainfuck
