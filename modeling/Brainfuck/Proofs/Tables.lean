/-
The bracket table of any sequence, and the table that parsing makes.

A sequence need not be balanced to have a table.

- `link` fails exactly if some prefix has more loop ends than loop starts (`exists_link_error_iff`). Otherwise every
  loop end is in a pair (`Pending.exists_start`), and a loop start is in one unless nothing behind it closes it
  (`neverBelow_behind_iff`). `IsOpenTable` says this entry by entry, and leaves one table only (`IsOpenTable.unique`).
- `Reading`: what is known after a part of a text whose commands, offsets and partners are collected in a single pass,
  in a table that grows with the commands. It follows the links of the commands (`Reading.Follows`): one character keeps
  this (`Follows.read`), so the whole text does (`Follows.readFrom`), and the pass parses as `parse` does
  (`parseInOnePass_eq`).
-/
import Brainfuck.Proofs.Blame

namespace Brainfuck

open Brainfuck.Bracket

/-! ## Sequences that need not be balanced -/

/-- behind a balanced part a loop end has nothing to close -/
theorem Balanced.not_neverBelow {front back : List Command} (h : Balanced front) :
    ¬ NeverBelow (front ++ .loopEnd :: back) := by
  intro hnever
  have hle := hnever (front ++ [.loopEnd]) back (by simp)
  have hstarts : (front ++ [Command.loopEnd]).count .loopStart = front.count .loopStart := by simp
  have hends : (front ++ [Command.loopEnd]).count .loopEnd = front.count .loopEnd + 1 := by simp
  rw [hstarts, hends, h.count_eq] at hle
  omega

namespace Bracket

section Link

variable {commands : List Command} {pending : List Nat} {l : Links} {i j : Nat}

theorem Pending.neverBelow (h : Pending commands pending) : NeverBelow commands := by
  induction h with
  | closed hb => exact hb.neverBelow
  | opened _ hbody ih => exact ih.append hbody.neverBelow.cons_loopStart

/-- whatever stays open, every loop end has closed a loop -/
theorem Pending.exists_start (h : Pending commands pending) (hj : commands[j]? = some .loopEnd) :
    ∃ i, Pair commands i j := by
  induction h generalizing j with
  | closed hb => exact Bracket.exists_start hb hj
  | @opened pre body _ _ hbody ih =>
    rcases Nat.lt_trichotomy j pre.length with hlt | rfl | hgt
    · rw [List.getElem?_append_left hlt] at hj
      obtain ⟨i, hp⟩ := ih hj
      exact ⟨i, hp.append _⟩
    · simp at hj
    · obtain ⟨k, rfl⟩ := Nat.exists_eq_add_of_lt hgt
      rw [List.getElem?_append_right (by omega), show pre.length + k + 1 - pre.length = k + 1 by omega,
        List.getElem?_cons_succ] at hj
      obtain ⟨i, hp⟩ := Bracket.exists_start hbody hj
      have hwithin := hp.within (pre ++ [.loopStart]) []
      rw [show (pre ++ [Command.loopStart]).length + k = pre.length + k + 1 by simp; omega] at hwithin
      exact ⟨_, by simpa using hwithin⟩

/-- a table is refused exactly if some prefix has more loop ends than loop starts -/
theorem exists_link_error_iff : (∃ index, link commands = .error index) ↔ ¬ NeverBelow commands := by
  constructor
  · rintro ⟨index, h⟩ hnever
    obtain ⟨front, back, rfl, -, hb⟩ := exists_of_link_error h
    exact hb.not_neverBelow (by simpa using hnever)
  · intro hbelow
    cases h : link commands with
    | error index => exact ⟨index, rfl⟩
    | ok l => exact absurd (reads_link h).pending.neverBelow hbelow

/-- a loop start is in no pair exactly if nothing behind it closes it -/
theorem neverBelow_behind_iff (hi : commands[i]? = some .loopStart) :
    NeverBelow (commands.drop (i + 1)) ↔ ∀ j, ¬ Pair commands i j := by
  constructor
  · intro hnever j hp
    obtain ⟨body, hb, ⟨front, back, rfl, rfl⟩, -⟩ := hp.exists_stands
    exact hb.not_neverBelow (by simpa using hnever)
  · intro hnone
    by_contra hbelow
    obtain ⟨index, herror⟩ := exists_link_error_iff.2 hbelow
    obtain ⟨body, back, hdrop, -, hb⟩ := exists_of_link_error herror
    obtain ⟨hlt, hget⟩ := List.getElem?_eq_some_iff.1 hi
    have hstands : Stands commands i (.loopStart :: (body ++ .loopEnd :: back)) := by
      refine ⟨commands.take i, [], ?_, by simp; omega⟩
      rw [← hdrop, ← hget, List.append_nil, List.getElem_cons_drop, List.take_append_drop]
    exact hnone _ (.of_stands hb hstands)

end Link

/-- what the table of a sequence says, entry by entry, when loop starts may stay open -/
structure IsOpenTable (commands : List Command) (table : Array (Option Nat)) : Prop where
  size : table.size = commands.length
  plain : ∀ (i : Nat) (c : Command), commands[i]? = some c → c.IsPlain → table[i]? = some none
  stop : ∀ j, commands[j]? = some .loopEnd →
    ∃ i, IsGreatest {i | Pair commands i j} i ∧ table[j]? = some (some i) ∧ table[i]? = some (some j)
  start : ∀ i, commands[i]? = some .loopStart →
    (table[i]? = some none ↔ NeverBelow (commands.drop (i + 1))) ∧
    (table[i]? = some none ↔ ∀ j, ¬ Pair commands i j)

namespace IsOpenTable

variable {commands : List Command} {table other : Array (Option Nat)} {i j : Nat}

theorem entry_of_pair (h : IsOpenTable commands table) (hp : Pair commands i j) :
    table[i]? = some (some j) ∧ table[j]? = some (some i) := by
  obtain ⟨k, hk, hjk, hkj⟩ := h.stop j hp.stop
  rw [hp.start_unique hk.1]
  exact ⟨hkj, hjk⟩

/-- two tables of a sequence have the same entry for each of its commands -/
theorem entry_eq (h : IsOpenTable commands table) (h' : IsOpenTable commands other) {c : Command}
    (hi : commands[i]? = some c) : table[i]? = other[i]? := by
  by_cases hplain : c.IsPlain
  · rw [h.plain i c hi hplain, h'.plain i c hi hplain]
  · obtain rfl | rfl : c = .loopStart ∨ c = .loopEnd := by
      rw [Command.IsPlain, not_and_or, not_not, not_not] at hplain
      exact hplain
    · by_cases hpair : ∃ j, Pair commands i j
      · obtain ⟨j, hp⟩ := hpair
        rw [(h.entry_of_pair hp).1, (h'.entry_of_pair hp).1]
      · rw [not_exists] at hpair
        rw [(h.start i hi).2.2 hpair, (h'.start i hi).2.2 hpair]
    · obtain ⟨k, hk, -, -⟩ := h.stop i hi
      rw [(h.entry_of_pair hk.1).2, (h'.entry_of_pair hk.1).2]

theorem unique (h : IsOpenTable commands table) (h' : IsOpenTable commands other) : other = table := by
  refine Array.ext (by rw [h.size, h'.size]) fun i hi hi' => ?_
  have hlt : i < commands.length := h.size ▸ hi'
  have heq := h'.entry_eq h (List.getElem?_eq_getElem hlt)
  simpa [hi, hi'] using heq

end IsOpenTable

/-- an entry stays empty exactly if its command is in no pair -/
theorem entry_eq_none_iff {commands : List Command} {l : Links} {i : Nat} {c : Command} (h : link commands = .ok l)
    (hi : commands[i]? = some c) : l.table[i]? = some none ↔ ∀ j, ¬ Partners commands i j := by
  have hlt : i < l.table.size := by
    rw [size_table_of_link h]
    exact (List.getElem?_eq_some_iff.1 hi).1
  rw [Array.getElem?_eq_getElem hlt, Option.some.injEq, Option.eq_none_iff_forall_ne_some]
  refine forall_congr' fun j => not_congr ?_
  rw [← (reads_link h).table, Array.getElem?_eq_getElem hlt, Option.some.injEq]

theorem isOpenTable_of_link {commands : List Command} {l : Links} (h : link commands = .ok l) :
    IsOpenTable commands l.table := by
  have hreads := reads_link h
  have hstart : ∀ i, commands[i]? = some .loopStart → (l.table[i]? = some none ↔ ∀ j, ¬ Pair commands i j) := by
    intro i hi
    have hno : ∀ j, ¬ Pair commands j i := fun j hp => absurd (hi.symm.trans hp.stop) (by simp)
    rw [entry_eq_none_iff h hi]
    simp only [Partners, hno, or_false]
  refine ⟨size_table_of_link h, fun i c hi hc => ?_, fun j hj => ?_, fun i hi => ⟨?_, hstart i hi⟩⟩
  · rw [entry_eq_none_iff h hi]
    rintro j (hp | hp)
    · exact hc.1 (Option.some.inj (hi.symm.trans hp.start))
    · exact hc.2 (Option.some.inj (hi.symm.trans hp.stop))
  · obtain ⟨i, hp⟩ := hreads.pending.exists_start hj
    refine ⟨i, ⟨hp, fun k hk => ?_⟩, (hreads.table j i).2 (.inr hp), (hreads.table i j).2 (.inl hp)⟩
    exact Nat.le_of_eq (hk.start_unique hp)
  · rw [hstart i hi, neverBelow_behind_iff hi]

/-- brackets that stand in the front part of a table are paired there -/
theorem pair_append {table rest : Array (Option Nat)} {start stop : Nat} (hstart : start < table.size)
    (hstop : stop < table.size) : Links.pair (table ++ rest) start stop = Links.pair table start stop ++ rest := by
  rw [Links.pair, Array.setIfInBounds_append_left hstart, Array.setIfInBounds_append_left (by simpa using hstop),
    Links.pair]

end Bracket

/-! ## Parsing in a single pass -/

namespace Program

theorem offsets_snoc (pre : List Char) (a : Char) :
    offsets (pre ++ [a]) = offsets pre ++ ((Command.ofChar? a).map fun _ => pre.length).toList := by
  cases h : Command.ofChar? a <;> simp [offsets, located, List.zipIdx_append, h]

/-- what has been collected after a part of a text -/
structure Reading where
  commands : Array Command
  /-- offsets in the text -/
  positions : Array Nat
  /-- for each command the index of its partner, if it has been met -/
  table : Array (Option Nat)
  /-- the loop starts that are still open, innermost first, each with its offset -/
  pending : List (Nat × Nat)

namespace Reading

/-- nothing read yet -/
def empty : Reading := ⟨#[], #[], #[], []⟩

/-- put down one more command, with its offset and an empty entry -/
def add (r : Reading) (offset : Nat) (c : Command) : Reading :=
  { r with commands := r.commands.push c, positions := r.positions.push offset, table := r.table.push none }

/-- read the command at an offset; a loop end with no open loop fails -/
def read (r : Reading) (offset : Nat) (c : Command) : Option Reading :=
  let index := r.commands.size
  let added := r.add offset c
  match c with
  | .loopStart => some { added with pending := (index, offset) :: r.pending }
  | .loopEnd =>
    match r.pending with
    | [] => none
    | (start, _) :: pending => some { added with table := Links.pair added.table start index, pending }
  | _ => some added

/-- read the text from an offset on; the failure is the offset of the loop end without partner -/
def readFrom (offset : Nat) (r : Reading) : List Char → Except Nat Reading
  | [] => .ok r
  | a :: rest =>
    match Command.ofChar? a with
    | none => readFrom (offset + 1) r rest
    | some c =>
      match r.read offset c with
      | none => .error offset
      | some r => readFrom (offset + 1) r rest

/-- the links are those of the commands read, with empty entries for the commands to come -/
structure Follows (pre rest : List Char) (r : Reading) (l : Links) : Prop where
  commands : r.commands.toList = commandsOf pre
  positions : r.positions.toList = offsets pre
  size : r.table.size = r.commands.size
  table : l.table = r.table ++ Array.replicate (commandsOf rest).length none
  pending : l.pending = r.pending.map Prod.fst
  opened : ∀ x ∈ r.pending, (offsets pre)[x.1]? = some x.2

namespace Follows

variable {pre rest : List Char} {r : Reading} {l : Links} {c : Command} {a : Char}

theorem of_empty (cs : List Char) : Follows [] cs empty (.empty (commandsOf cs).length) :=
  ⟨rfl, rfl, rfl, by simp [Links.empty, empty], rfl, by simp [empty]⟩

theorem size_commands (h : Follows pre rest r l) : r.commands.size = (commandsOf pre).length := by
  rw [← h.commands, Array.length_toList]

theorem skip (h : Follows pre (a :: rest) r l) (ha : Command.ofChar? a = none) :
    Follows (pre ++ [a]) rest r l := by
  have hcommands : commandsOf (pre ++ [a]) = commandsOf pre := by simp [commandsOf, ha]
  have hrest : commandsOf (a :: rest) = commandsOf rest := by simp [commandsOf, ha]
  have hoffsets : offsets (pre ++ [a]) = offsets pre := by simp [offsets_snoc, ha]
  refine ⟨?_, ?_, h.size, ?_, h.pending, ?_⟩
  · rw [hcommands, h.commands]
  · rw [hoffsets, h.positions]
  · rw [h.table, hrest]
  · rw [hoffsets]
    exact h.opened

theorem add (h : Follows pre (a :: rest) r l) (ha : Command.ofChar? a = some c) :
    Follows (pre ++ [a]) rest (r.add pre.length c) l := by
  have hcommands : commandsOf (pre ++ [a]) = commandsOf pre ++ [c] := by simp [commandsOf, ha]
  have hrest : commandsOf (a :: rest) = c :: commandsOf rest := by simp [commandsOf, ha]
  have hoffsets : offsets (pre ++ [a]) = offsets pre ++ [pre.length] := by simp [offsets_snoc, ha]
  refine ⟨?_, ?_, ?_, ?_, h.pending, fun x hx => ?_⟩
  · simp [Reading.add, hcommands, h.commands]
  · simp [Reading.add, hoffsets, h.positions]
  · simp [Reading.add, h.size]
  · rw [h.table, hrest, List.length_cons, Nat.add_comm, ← Array.replicate_append_replicate, ← Array.append_assoc]
    rfl
  · have hopened := h.opened x hx
    rw [hoffsets, List.getElem?_append_left (List.getElem?_eq_some_iff.1 hopened).1, hopened]

/-- the offset of the command that is read next -/
theorem getElem?_offsets (h : Follows pre (a :: rest) r l) (ha : Command.ofChar? a = some c) (post : List Char) :
    (offsets (pre ++ a :: post))[r.commands.size]? = some pre.length := by
  rw [h.size_commands, Command.ofChar?_eq_some_iff.1 ha, Program.getElem?_offsets]

/-- a command is read on both sides or refused on both -/
theorem read (h : Follows pre (a :: rest) r l) (ha : Command.ofChar? a = some c) :
    r.read pre.length c = none ∧ l.read r.commands.size c = none ∨
    ∃ r' l', r.read pre.length c = some r' ∧ l.read r.commands.size c = some l' ∧
      Follows (pre ++ [a]) rest r' l' := by
  have hadd := h.add ha
  cases c with
  | loopStart =>
    refine .inr ⟨_, _, rfl, rfl, { hadd with pending := ?_, opened := ?_ }⟩
    · simp [h.pending]
    · rintro x (_ | ⟨_, hx⟩)
      · exact h.getElem?_offsets ha []
      · exact hadd.opened x hx
  | loopEnd =>
    cases hpending : r.pending with
    | nil => exact .inl ⟨by simp [Reading.read, hpending], by simp [Links.read, h.pending, hpending]⟩
    | cons x pending =>
      have hlt : x.1 < r.commands.size := by
        have hopened := h.opened x (by simp [hpending])
        rw [h.size_commands, ← length_offsets]
        exact (List.getElem?_eq_some_iff.1 hopened).1
      have hsize : (r.add pre.length .loopEnd).table.size = r.commands.size + 1 := by simp [Reading.add, h.size]
      refine .inr ⟨{ r.add pre.length .loopEnd with
          table := Links.pair (r.add pre.length .loopEnd).table x.1 r.commands.size, pending },
        ⟨Links.pair l.table x.1 r.commands.size, pending.map Prod.fst⟩,
        by simp [Reading.read, hpending], by simp [Links.read, h.pending, hpending],
        { hadd with size := ?_, table := ?_, pending := rfl, opened := fun y hy => ?_ }⟩
      · rw [size_pair, hadd.size]
      · rw [hadd.table, pair_append (by omega) (by omega)]
      · exact hadd.opened y (by simp [Reading.add, hpending, hy])
  | _ => exact .inr ⟨_, _, rfl, rfl, hadd⟩

/-- the rest is read on both sides, or both stop at the same loop end -/
theorem readFrom (h : Follows pre rest r l) :
    (∃ index offset, Reading.readFrom pre.length r rest = .error offset ∧
      linkFrom (commandsOf pre).length l (commandsOf rest) = .error index ∧
      (offsets (pre ++ rest))[index]? = some offset) ∨
    ∃ r' l', Reading.readFrom pre.length r rest = .ok r' ∧
      linkFrom (commandsOf pre).length l (commandsOf rest) = .ok l' ∧ Follows (pre ++ rest) [] r' l' := by
  induction rest generalizing pre r l with
  | nil => exact .inr ⟨r, l, rfl, rfl, by simpa using h⟩
  | cons a rest ih =>
    have hsplit : pre ++ a :: rest = pre ++ [a] ++ rest := by simp
    rw [hsplit]
    cases ha : Command.ofChar? a with
    | none =>
      have hcommands : commandsOf (pre ++ [a]) = commandsOf pre := by simp [commandsOf, ha]
      have hrest : commandsOf (a :: rest) = commandsOf rest := by simp [commandsOf, ha]
      have := ih (h.skip ha)
      rw [List.length_append, List.length_singleton, hcommands] at this
      simpa only [Reading.readFrom, ha, hrest] using this
    | some c =>
      have hcommands : (commandsOf (pre ++ [a])).length = (commandsOf pre).length + 1 := by simp [commandsOf, ha]
      have hrest : commandsOf (a :: rest) = c :: commandsOf rest := by simp [commandsOf, ha]
      rcases h.read ha with ⟨hr, hl⟩ | ⟨r', l', hr, hl, hfollows⟩
      · refine .inl ⟨r.commands.size, pre.length, by simp [Reading.readFrom, ha, hr], ?_, ?_⟩
        · rw [hrest, linkFrom, ← h.size_commands, hl]
        · rw [← hsplit, h.getElem?_offsets ha]
      · have := ih hfollows
        rw [List.length_append, List.length_singleton, hcommands] at this
        rw [h.size_commands] at hl
        simpa only [Reading.readFrom, ha, hr, hrest, linkFrom, hl] using this

end Follows

/-- the whole text is read, and the links of its commands are made, or both stop at the same loop end -/
theorem readFrom_empty (cs : List Char) :
    (∃ index offset, readFrom 0 empty cs = .error offset ∧ link (commandsOf cs) = .error index ∧
      (offsets cs)[index]? = some offset) ∨
    ∃ r l, readFrom 0 empty cs = .ok r ∧ link (commandsOf cs) = .ok l ∧ Follows cs [] r l :=
  (Follows.of_empty cs).readFrom

end Reading

/-- parse a text in a single pass over its characters -/
def parseInOnePass (source : Script) (precompute : Bool) : Except ParseError Program :=
  match Reading.empty.readFrom 0 source.chars with
  | .error offset => .error ⟨.loopEnd, .of source.chars offset⟩
  | .ok r =>
    match r.pending.getLast? with
    | some (_, offset) => .error ⟨.loopStart, .of source.chars offset⟩
    | none => .ok ⟨r.commands, r.positions, if precompute then some r.table else none⟩

/-- the single pass is parsing -/
theorem parseInOnePass_eq (source : Script) (precompute : Bool) :
    parseInOnePass source precompute = parse source precompute := by
  rcases Reading.readFrom_empty source.chars with ⟨index, offset, hr, hl, hoffset⟩ | ⟨r, l, hr, hl, hfollows⟩
  · have hgetD : (offsets source.chars).getD index 0 = offset := by
      rw [List.getD_eq_getElem?_getD, hoffset]
      rfl
    rw [parseInOnePass, parse, hr]
    simp only [hl, unmatched, hgetD]
  · rw [parseInOnePass, parse, hr]
    simp only [hl, hfollows.pending, List.getLast?_map]
    cases hlast : r.pending.getLast? with
    | none =>
      have hcommands : r.commands = (commandsOf source.chars).toArray := Array.toList_inj.1 hfollows.commands
      have hpositions : r.positions = (offsets source.chars).toArray := Array.toList_inj.1 hfollows.positions
      have htable : l.table = r.table := by rw [hfollows.table, commandsOf]; simp
      simp [hcommands, hpositions, htable]
    | some x =>
      have hoffset := hfollows.opened x (List.mem_of_getLast? hlast)
      simp [unmatched, hoffset]

/-- parsing with a table is parsing without one, and then making it -/
theorem parse_true_eq_map_withTable (source : Script) :
    parse source true = (parse source false).map withTable := by
  cases hl : link (commandsOf source.chars) with
  | error index => simp [parse, hl, Except.map]
  | ok l =>
    cases hlast : l.pending.getLast? with
    | some index => simp [parse, hl, hlast, Except.map]
    | none => simp [parse, hl, hlast, Except.map, withTable]

theorem withTable_of_table {p : Program} (h : p.table ≠ none) : p.withTable = p := by
  obtain ⟨table, ht⟩ := Option.ne_none_iff_exists'.1 h
  rw [withTable, ht]

theorem withTable_withTable (p : Program) : p.withTable.withTable = p.withTable := by
  cases ht : p.table with
  | some table =>
    have hself : p.withTable = p := withTable_of_table (by simp [ht])
    rw [hself, hself]
  | none =>
    cases hl : link p.commands.toList with
    | error index =>
      have hself : p.withTable = p := by rw [withTable, ht, hl]
      rw [hself, hself]
    | ok l =>
      have hmade : p.withTable = { p with table := some l.table } := by rw [withTable, ht, hl]
      exact withTable_of_table (by simp [hmade])

end Program

/-- **Tables of any sequence, and the table that parsing makes.** A table is refused exactly if some prefix has more
loop ends than loop starts. Otherwise it has one entry for each command: a loop end and its loop start hold each other,
and every other entry is empty; only one table says this. A single pass over the text parses as `parse` does. Parsing
with a table is parsing without one and then making it from the links of the commands; to make it again changes
nothing. -/
theorem tables_agree (commands : List Command) (source : Script) :
    ((∃ index, link commands = .error index) ↔
      ∃ front back, commands = front ++ back ∧ front.count .loopStart < front.count .loopEnd) ∧
    (∀ l, link commands = .ok l → IsOpenTable commands l.table ∧
      ∀ other, IsOpenTable commands other → other = l.table) ∧
    (∀ precompute, Program.parseInOnePass source precompute = Program.parse source precompute) ∧
    Program.parse source true = (Program.parse source false).map Program.withTable ∧
    (∀ p, Program.parse source true = .ok p → ∃ l, link p.commands.toList = .ok l ∧ p.table = some l.table) ∧
    (∀ p : Program, p.withTable.withTable = p.withTable) ∧
    ∀ p : Program, p.table ≠ none → p.withTable = p := by
  refine ⟨?_, fun l hl => ⟨isOpenTable_of_link hl, fun other => (isOpenTable_of_link hl).unique⟩,
    Program.parseInOnePass_eq source, Program.parse_true_eq_map_withTable source, fun p hp => ?_,
    Program.withTable_withTable, fun p => Program.withTable_of_table⟩
  · rw [exists_link_error_iff]
    simp only [NeverBelow, not_forall, Nat.not_le, exists_prop]
  · obtain ⟨l, hl, -, rfl⟩ := Program.parse_eq_ok_iff.1 hp
    exact ⟨l, hl, rfl⟩

/-- of three loop starts the middle one is closed; with a loop end in front there is no table -/
theorem tables_agree_open : ∃ l,
    link [.loopStart, .loopStart, .loopEnd, .loopStart, .output] = .ok l ∧
    l.table = #[none, some 2, some 1, none, none] ∧
    IsOpenTable [.loopStart, .loopStart, .loopEnd, .loopStart, .output] l.table ∧
    (∃ index, link [.loopEnd, .loopStart] = .error index) ∧
    Program.parseInOnePass (.text "+[>[-]<[->+<]]") true =
      (Program.parse (.text "+[>[-]<[->+<]]") false).map Program.withTable := by
  obtain ⟨-, htable, -, -, -⟩ := tables_agree [.loopStart, .loopStart, .loopEnd, .loopStart, .output] (.text "")
  obtain ⟨herror, -, hpass, hmap, -⟩ := tables_agree [.loopEnd, .loopStart] (.text "+[>[-]<[->+<]]")
  exact ⟨_, rfl, rfl, (htable _ rfl).1, herror.2 ⟨[.loopEnd], [.loopStart], rfl, by decide⟩, (hpass true).trans hmap⟩

end Brainfuck
