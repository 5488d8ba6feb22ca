/-
Which texts are programs, and what parsing makes of them.

- `Places`: the offsets are those of the command characters, in order, and each command is spelled at its offset.
- `IsTable`: entry by entry what a bracket table says. A balanced sequence has one table only (`IsTable.unique`), and
  its pairs are nested or apart (`IsTable.nested_or_disjoint`).
- `parse_accepts_balanced`: a text is parsed exactly if its commands are balanced, and then both hold of the program.
-/
import Brainfuck.Proofs.Partner

namespace Brainfuck

open Brainfuck.Bracket

/-! ## Offsets -/

/-- the commands of the text `cs` stand at the offsets `positions` -/
structure Places (cs : List Char) (commands : Array Command) (positions : Array Nat) : Prop where
  increasing : positions.toList.Pairwise (· < ·)
  mem_iff : ∀ k : Nat, k ∈ positions ↔ ∃ c : Command, cs[k]? = some c.char
  size : positions.size = commands.size
  spelled : ∀ i k : Nat, positions[i]? = some k → ∃ c : Command, commands[i]? = some c ∧ cs[k]? = some c.char

namespace Program

theorem mem_located_iff {cs : List Char} {k : Nat} {c : Command} : (k, c) ∈ located cs ↔ cs[k]? = some c.char := by
  simp only [located, List.mem_filterMap, Prod.exists, List.mk_mem_zipIdx_iff_getElem?, Option.map_eq_some_iff,
    Command.ofChar?_eq_some_iff, Prod.mk.injEq]
  constructor
  · rintro ⟨_, _, hk, _, rfl, rfl, rfl⟩
    exact hk
  · intro h
    exact ⟨_, _, h, _, rfl, rfl, rfl⟩

theorem pairwise_located (cs : List Char) : (located cs).Pairwise fun x y => x.1 < y.1 := by
  have hidx : cs.zipIdx.Pairwise fun x y => x.2 < y.2 := by
    rw [← List.pairwise_map, List.zipIdx_map_snd]
    exact List.pairwise_lt_range'
  refine List.Pairwise.filterMap _ (fun x y hxy a ha b hb => ?_) hidx
  simp only [Option.map_eq_some_iff] at ha hb
  obtain ⟨_, _, rfl⟩ := ha
  obtain ⟨_, _, rfl⟩ := hb
  exact hxy

theorem places_offsets (cs : List Char) : Places cs (commandsOf cs).toArray (offsets cs).toArray where
  increasing := List.pairwise_map.2 (pairwise_located cs)
  mem_iff k := by
    simp only [List.mem_toArray, offsets, List.mem_map, Prod.exists, exists_and_right, exists_eq_right,
      mem_located_iff]
  size := by simp [offsets, ← map_snd_located]
  spelled i k hk := by
    simp only [List.getElem?_toArray, offsets, List.getElem?_map, Option.map_eq_some_iff] at hk
    obtain ⟨⟨_, c⟩, hx, rfl⟩ := hk
    refine ⟨c, ?_, mem_located_iff.1 (List.mem_of_getElem? hx)⟩
    rw [List.getElem?_toArray, ← map_snd_located, List.getElem?_map, hx]
    rfl

end Program

/-! ## Tables -/

/-- what the bracket table of a sequence says, entry by entry -/
structure IsTable (commands : List Command) (table : Array (Option Nat)) : Prop where
  size : table.size = commands.length
  plain : ∀ (i : Nat) (c : Command), commands[i]? = some c → c.IsPlain → table[i]? = some none
  start : ∀ i, commands[i]? = some .loopStart → ∃ j, table[i]? = some (some j) ∧ i < j ∧ j < commands.length ∧
    commands[j]? = some .loopEnd ∧ table[j]? = some (some i) ∧ Balanced ((commands.take j).drop (i + 1))

namespace IsTable

variable {commands : List Command} {table other : Array (Option Nat)} {i j : Nat}

theorem exists_pair (h : IsTable commands table) (hi : commands[i]? = some .loopStart) :
    ∃ j, Pair commands i j ∧ table[i]? = some (some j) ∧ table[j]? = some (some i) := by
  obtain ⟨j, hij, hlt, _, hstop, hji, hb⟩ := h.start i hi
  exact ⟨j, ⟨hlt, hi, hstop, hb⟩, hij, hji⟩

theorem entry_of_pair (h : IsTable commands table) (hp : Pair commands i j) :
    table[i]? = some (some j) ∧ table[j]? = some (some i) := by
  obtain ⟨k, hk, hik, hki⟩ := h.exists_pair hp.start
  rw [hp.stop_unique hk]
  exact ⟨hik, hki⟩

/-- in a balanced sequence the table holds the pairs and nothing else -/
theorem entry_iff (h : IsTable commands table) (hb : Balanced commands) :
    table[i]? = some (some j) ↔ Partners commands i j := by
  constructor
  · intro ht
    have hi : i < commands.length := by rw [← h.size]; exact (Array.getElem?_eq_some_iff.1 ht).1
    have hc := List.getElem?_eq_getElem hi
    by_cases hplain : commands[i].IsPlain
    · rw [h.plain i _ hc hplain] at ht
      simp at ht
    · obtain ⟨k, hk⟩ := hb.exists_partner hc hplain
      have hentry : table[i]? = some (some k) := hk.elim (fun p => (h.entry_of_pair p).1) fun p => (h.entry_of_pair p).2
      rw [hentry] at ht
      cases ht
      exact hk
  · rintro (hp | hp)
    · exact (h.entry_of_pair hp).1
    · exact (h.entry_of_pair hp).2

/-- a table that holds the pairs and nothing else says what it should -/
theorem of_entry_iff (hb : Balanced commands) (hsize : table.size = commands.length)
    (h : ∀ i j, table[i]? = some (some j) ↔ Partners commands i j) : IsTable commands table where
  size := hsize
  plain i c hc hplain := by
    have hi : i < table.size := by rw [hsize]; exact (List.getElem?_eq_some_iff.1 hc).1
    rw [Array.getElem?_eq_getElem hi, Option.some.injEq, Option.eq_none_iff_forall_ne_some]
    intro j hj
    rcases (h i j).1 (by rw [Array.getElem?_eq_getElem hi, hj]) with hp | hp
    · exact hplain.1 (Option.some.inj (hc.symm.trans hp.start))
    · exact hplain.2 (Option.some.inj (hc.symm.trans hp.stop))
  start i hi := by
    obtain ⟨j, hp⟩ := exists_stop hb hi
    exact ⟨j, (h i j).2 (.inl hp), hp.lt, hp.lt_length, hp.stop, (h j i).2 (.inr hp), hp.between⟩

theorem unique (h : IsTable commands table) (h' : IsTable commands other) (hb : Balanced commands) :
    other = table := by
  refine Array.ext (by rw [h.size, h'.size]) fun i hi hi' => Option.ext fun j => ?_
  have hj := (h'.entry_iff hb (i := i) (j := j)).trans (h.entry_iff hb).symm
  simpa [Array.getElem?_eq_getElem, hi, hi'] using hj

/-- two loops of a table are one inside the other, or apart -/
theorem nested_or_disjoint {i' j' : Nat} (h : IsTable commands table) (hb : Balanced commands)
    (hij : table[i]? = some (some j)) (hij' : table[i']? = some (some j')) (hlt : i < j) (hlt' : i' < j')
    (hi : i < i') : j < i' ∨ j' < j := by
  rcases (h.entry_iff hb).1 hij with hp | hp
  · rcases (h.entry_iff hb).1 hij' with hp' | hp'
    · exact hp.nested_or_disjoint hp' hi
    · exact absurd hp'.lt (Nat.lt_asymm hlt')
  · exact absurd hp.lt (Nat.lt_asymm hlt)

end IsTable

/-! ## Parsing -/

/-- the table that parsing makes says what it should -/
theorem isTable_of_link {commands : List Command} {l : Links} (h : link commands = .ok l) (hp : l.pending = []) :
    IsTable commands l.table :=
  .of_entry_iff (balanced_iff_link.2 ⟨l, h, hp⟩) (size_table_of_link h) (reads_link h).table

/-- **Parsing accepts the balanced texts.** A text is parsed, with or without a table, exactly if its commands are
balanced. Its program has the commands at their offsets, and the only table that says where their partners are. -/
theorem parse_accepts_balanced (source : Script) (precompute : Bool) :
    ((∃ p, Program.parse source precompute = .ok p) ↔ Balanced (commandsOf source.chars)) ∧
    ∀ p, Program.parse source precompute = .ok p →
      p.commands.toList = commandsOf source.chars ∧
      Places source.chars p.commands p.positions ∧
      (precompute = false → p.table = none) ∧
      (precompute = true → ∃ table, p.table = some table ∧ IsTable p.commands.toList table ∧
        (∀ other, IsTable p.commands.toList other → other = table) ∧
        ∀ i j i' j' : Nat, table[i]? = some (some j) → table[i']? = some (some j') → i < j → i' < j' → i < i' →
          j < i' ∨ j' < j) := by
  refine ⟨?_, fun p hp => ?_⟩
  · rw [balanced_iff_link]
    constructor
    · rintro ⟨p, hp⟩
      obtain ⟨l, hl, hpending, -⟩ := Program.parse_eq_ok_iff.1 hp
      exact ⟨l, hl, hpending⟩
    · rintro ⟨l, hl, hpending⟩
      exact ⟨_, Program.parse_eq_ok_iff.2 ⟨l, hl, hpending, rfl⟩⟩
  · obtain ⟨l, hl, hpending, rfl⟩ := Program.parse_eq_ok_iff.1 hp
    have hb : Balanced (commandsOf source.chars) := balanced_iff_link.2 ⟨l, hl, hpending⟩
    have ht := isTable_of_link hl hpending
    refine ⟨rfl, Program.places_offsets _, fun h => by rw [h]; rfl, fun h => ⟨l.table, by rw [h]; rfl, ht, ?_, ?_⟩⟩
    · exact fun other hother => ht.unique hother hb
    · exact fun i j i' j' hij hij' => ht.nested_or_disjoint hb hij hij'

/-- two loops, one in the other, with a comment between them -/
theorem parse_accepts_nested_loops : ∃ p table, Program.parse (.text "-[x[.]]") true = .ok p ∧
    p.positions = #[0, 1, 3, 4, 5, 6] ∧ Places "-[x[.]]".toList p.commands p.positions ∧
    p.table = some table ∧ IsTable p.commands.toList table := by
  obtain ⟨_, hplaces, _, htable⟩ := (parse_accepts_balanced (.text "-[x[.]]") true).2 _ rfl
  obtain ⟨table, hp, ht, _, _⟩ := htable rfl
  exact ⟨_, table, rfl, rfl, hplaces, hp, ht⟩

end Brainfuck
