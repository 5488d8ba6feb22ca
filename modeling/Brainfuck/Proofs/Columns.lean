/-
The columns of the lines about the memory.

- `columns start items`: the columns that items take in a line, one column apart. `map_textIn_columns`: in these
  columns the line shows the items.
- `columns_of_three`: an item stands in a column that is known if it and all before it take three places.
  `length_threeWide_eq_three_iff`: so do the numbers below a thousand.
- `Debugger.values`, `Debugger.marks`, `Debugger.addresses`: what the three lines show (`Debugger.memory_eq`).
- `columns_agree_below_thousand`: a value and its mark always stand in the same columns, and an address stands in them
  exactly if it is below a thousand.
- `wide_addresses_are_displaced`: the pointer's mark may stand between two addresses.
-/
import Brainfuck.Proofs.Windows

namespace Brainfuck

/-! ## Items in a line -/

/-- the columns that items take, one column apart, from a column on: each from the first number to before the second -/
def columns (start : Nat) : List String → List (Nat × Nat)
  | [] => []
  | s :: items => (start, start + s.length) :: columns (start + s.length + 1) items

/-- the text in columns of a line -/
def textIn (line : String) (c : Nat × Nat) : String := Debugger.span line.toList c.1 c.2

section Columns

variable {start k : Nat} {s : String} {items : List String}

/-- an item takes as many columns as it has characters -/
theorem width_of_columns {c : Nat × Nat} (hc : (columns start items)[k]? = some c) (hs : items[k]? = some s) :
    c.2 = c.1 + s.length := by
  induction items generalizing start k with
  | nil => cases hs
  | cons first rest ih =>
    cases k with
    | zero =>
      cases hs
      cases hc
      rfl
    | succ k => exact ih hc hs

/-- where an item stands if it and all before it take three places -/
theorem columns_of_three (hs : items[k]? = some s) (hthree : ∀ j ≤ k, ∀ s, items[j]? = some s → s.length = 3) :
    (columns start items)[k]? = some (start + 4 * k, start + 4 * k + 3) := by
  induction items generalizing start k with
  | nil => cases hs
  | cons first rest ih =>
    have hfirst : first.length = 3 := hthree 0 (Nat.zero_le k) first rfl
    cases k with
    | zero =>
      rw [columns, hfirst]
      rfl
    | succ k =>
      have hrest : (columns (start + 3 + 1) rest)[k]? = some (start + 3 + 1 + 4 * k, start + 3 + 1 + 4 * k + 3) :=
        ih hs fun j hj => hthree (j + 1) (Nat.succ_le_succ hj)
      have hplace : start + 3 + 1 + 4 * k = start + 4 * (k + 1) := by omega
      rw [columns, hfirst, List.getElem?_cons_succ, hrest, hplace]

theorem textIn_append (head s tail : String) :
    textIn (head ++ s ++ tail) (head.length, head.length + s.length) = s := by
  simp only [textIn, Debugger.span, String.toList_append, ← String.length_toList, List.append_assoc]
  rw [← List.append_assoc, List.take_left' (List.length_append), List.drop_left, String.ofList_toList]

/-- in its columns a line shows its items -/
theorem map_textIn_columns (head tail : String) {sep : String} (hsep : sep.length = 1) (items : List String) :
    (columns head.length items).map (textIn (head ++ sep.intercalate items ++ tail)) = items := by
  induction items generalizing head with
  | nil => rfl
  | cons s rest ih =>
    obtain ⟨t, ht⟩ := Debugger.exists_intercalate sep s rest
    have hs : head ++ sep.intercalate (s :: rest) ++ tail = head ++ s ++ (t ++ tail) := by
      rw [ht, ← String.append_assoc, ← String.append_assoc]
    rw [columns, List.map_cons, hs, textIn_append, ← hs]
    congr 1
    cases rest with
    | nil => rfl
    | cons s' rest =>
      -- the rest stands in the line after the item and its separator
      have hline : head ++ sep.intercalate (s :: s' :: rest) ++ tail =
          (head ++ s ++ sep) ++ sep.intercalate (s' :: rest) ++ tail := by
        rw [String.intercalate_cons_of_ne_nil (List.cons_ne_nil s' rest)]
        simp only [String.append_assoc]
      have hlength : (head ++ s ++ sep).length = head.length + s.length + 1 := by
        rw [String.length_append, String.length_append, hsep]
      rw [hline, ← hlength]
      exact ih (head ++ s ++ sep)

end Columns

/-! ## Numbers in three places -/

/-- a number takes three places or as many as it has digits -/
theorem length_threeWide_eq (n : Nat) : (Debugger.threeWide n).length = max 3 (toString n).length := by
  rw [← String.length_toList, Debugger.threeWide, String.toList_append, List.length_append, String.toList_ofList,
    List.length_replicate, String.length_toList]
  omega

theorem length_threeWide_eq_three_iff {n : Nat} : (Debugger.threeWide n).length = 3 ↔ n < 1000 := by
  have hdigits : (toString n).length ≤ 3 ↔ n < 10 ^ 3 := Nat.length_repr_le_iff (by decide)
  rw [length_threeWide_eq, ← show 10 ^ 3 = 1000 from rfl, ← hdigits]
  omega

/-! ## The lines about the memory -/

namespace Debugger

/-- the cells shown -/
def shown (d : Debugger) : List Nat := between d.memoryWindow.1 d.memoryWindow.2

/-- the texts of the values shown -/
def values (d : Debugger) : List String := d.shown.map fun i => threeWide (d.machine.tape.read i).toNat

/-- the marks of the cells shown -/
def marks (d : Debugger) : List String := d.shown.map fun i => if i = d.machine.pointer then " ^ " else "   "

/-- the texts of the addresses shown -/
def addresses (d : Debugger) : List String := d.shown.map threeWide

variable {d : Debugger} {first n k : Nat}

theorem memory_eq (d : Debugger) : d.memory =
    ["Memory:   [" ++ "|".intercalate d.values ++ "]", "Pointer:   " ++ " ".intercalate d.marks,
      "Address:   " ++ " ".intercalate d.addresses] := rfl

theorem getElem?_shown {α : Type} (hshown : d.shown = List.range' first n) (hk : k < n) (f : Nat → α) :
    (d.shown.map f)[k]? = some (f (first + k)) := by
  rw [hshown, List.getElem?_map, List.getElem?_range' hk, Nat.one_mul, Option.map_some]

theorem columns_values (hshown : d.shown = List.range' first n) (hk : k < n) :
    (columns 11 d.values)[k]? = some (11 + 4 * k, 11 + 4 * k + 3) := by
  refine columns_of_three (getElem?_shown hshown hk _) fun j _ s hs => ?_
  obtain ⟨i, -, rfl⟩ := List.mem_map.1 (List.mem_of_getElem? hs)
  exact String.length_toList ▸ length_threeWide _

theorem columns_marks (hshown : d.shown = List.range' first n) (hk : k < n) :
    (columns 11 d.marks)[k]? = some (11 + 4 * k, 11 + 4 * k + 3) := by
  refine columns_of_three (getElem?_shown hshown hk _) fun j _ s hs => ?_
  obtain ⟨i, -, rfl⟩ := List.mem_map.1 (List.mem_of_getElem? hs)
  split <;> rfl

/-- an address stands where its value does exactly if it has no more than three digits -/
theorem columns_addresses_iff (hshown : d.shown = List.range' first n) (hk : k < n) :
    (columns 11 d.addresses)[k]? = some (11 + 4 * k, 11 + 4 * k + 3) ↔ first + k < 1000 := by
  have haddress := getElem?_shown hshown hk threeWide
  constructor
  · intro hcolumns
    have hwidth := width_of_columns hcolumns haddress
    rw [← length_threeWide_eq_three_iff]
    omega
  · intro hsmall
    refine columns_of_three haddress fun j hj s hs => ?_
    rw [addresses, getElem?_shown hshown (by omega)] at hs
    obtain rfl := Option.some.inj hs
    exact length_threeWide_eq_three_iff.2 (by omega)

/-- the lines show the values, the marks and the addresses in their columns -/
structure ShowsFields (d : Debugger) (memory pointer address : String) : Prop where
  memory_eq : d.memory = [memory, pointer, address]
  values : (columns 11 d.values).map (textIn memory) = d.values
  marks : (columns 11 d.marks).map (textIn pointer) = d.marks
  addresses : (columns 11 d.addresses).map (textIn address) = d.addresses

theorem exists_showsFields (d : Debugger) : ∃ memory pointer address, d.ShowsFields memory pointer address := by
  refine ⟨_, _, _, d.memory_eq, ?_, ?_, ?_⟩
  · exact map_textIn_columns "Memory:   [" "]" rfl d.values
  · have hmarks : (columns 11 d.marks).map (textIn ("Pointer:   " ++ " ".intercalate d.marks ++ "")) = d.marks :=
      map_textIn_columns "Pointer:   " "" rfl d.marks
    rwa [String.append_empty] at hmarks
  · have haddresses : (columns 11 d.addresses).map (textIn ("Address:   " ++ " ".intercalate d.addresses ++ "")) =
        d.addresses := map_textIn_columns "Address:   " "" rfl d.addresses
    rwa [String.append_empty] at haddresses

/-- which columns the fields of a memory window of `r` cells share -/
structure SharesColumns (d : Debugger) (r : Int) (first n : Nat) : Prop where
  shown : d.shown = List.range' first n
  width : (n : Int) = min r d.machine.tape.length
  pointer : first ≤ d.machine.pointer ∧ d.machine.pointer < first + n
  /-- the `k`-th fields are about the `k`-th cell -/
  fields : ∀ k < n, d.values[k]? = some (threeWide (d.machine.tape.read (first + k)).toNat) ∧
    d.marks[k]? = some (if first + k = d.machine.pointer then " ^ " else "   ") ∧
    d.addresses[k]? = some (threeWide (first + k))
  /-- a value and its mark share their columns -/
  values : ∀ k < n, (columns 11 d.values)[k]? = some (11 + 4 * k, 11 + 4 * k + 3) ∧
    (columns 11 d.marks)[k]? = some (11 + 4 * k, 11 + 4 * k + 3)
  /-- an address shares them if it is below a thousand, and no other does -/
  addresses : ∀ k < n, (columns 11 d.addresses)[k]? = some (11 + 4 * k, 11 + 4 * k + 3) ↔ first + k < 1000

theorem exists_sharesColumns (hpointer : d.machine.pointer < d.machine.tape.length) (hr : 1 ≤ d.memoryRange) :
    ∃ first n, d.SharesColumns d.memoryRange first n := by
  obtain ⟨first, n, hwindow, hn, -, hfirst, hlast⟩ := memoryWindow_of_pos hpointer hr
  have hshown : d.shown = List.range' first n := by
    rw [shown, hwindow]
    exact between_eq_range' first n
  exact ⟨first, n, {
    shown := hshown
    width := hn
    pointer := ⟨hfirst, hlast⟩
    fields := fun k hk =>
      ⟨getElem?_shown hshown hk _, getElem?_shown hshown hk _, getElem?_shown hshown hk _⟩
    values := fun k hk => ⟨columns_values hshown hk, columns_marks hshown hk⟩
    addresses := fun k hk => columns_addresses_iff hshown hk }⟩

end Debugger

/-- **Columns agree below a thousand.** In every state of a debugger, and for every positive width of the memory window,
each of the three lines shows its fields one column apart. The `k`-th value and the `k`-th mark take the same three
columns, whatever they are, and the `k`-th address takes these columns exactly if it is below a thousand. So the mark of
the pointer has the columns of the address of its cell exactly on the first thousand cells. -/
theorem columns_agree_below_thousand (code : Script) (config : Config) (input : List UInt8)
    (memoryRange programRange : Int) (hr : 1 ≤ memoryRange) (p : Program)
    (hp : Program.parse code config.precomputeJumps = .ok p) :
    ∃ d₀, Debugger.start code config input memoryRange programRange = .ok d₀ ∧
      ∀ k d, Debugger.Reaches d₀ k d →
        (∃ memory pointer address, d.ShowsFields memory pointer address) ∧
          ∃ first n, d.SharesColumns memoryRange first n ∧
            d.marks[d.machine.pointer - first]? = some " ^ " ∧
            ((columns 11 d.addresses)[d.machine.pointer - first]? =
              (columns 11 d.marks)[d.machine.pointer - first]? ↔ d.machine.pointer < 1000) := by
  obtain ⟨m, d₀, hm, hstart, hall⟩ := Debugger.exists_start input memoryRange programRange hp
  obtain ⟨-, hmemory₀, -⟩ := Debugger.settings_of_start hstart
  refine ⟨d₀, hstart, fun k d hd => ⟨d.exists_showsFields, ?_⟩⟩
  obtain ⟨-, hpointer⟩ := (hall k d hd).within hm
  have hrange : d.memoryRange = memoryRange := hd.ranges.1.trans hmemory₀
  obtain ⟨first, n, hshares⟩ := Debugger.exists_sharesColumns hpointer (hrange ▸ hr)
  rw [hrange] at hshares
  obtain ⟨hfirst, hlast⟩ := hshares.pointer
  have hk : d.machine.pointer - first < n := by omega
  have hcell : first + (d.machine.pointer - first) = d.machine.pointer := by omega
  obtain ⟨-, hmark, -⟩ := hshares.fields _ hk
  rw [hcell, if_pos rfl] at hmark
  refine ⟨first, n, hshares, hmark, ?_⟩
  rw [(hshares.values _ hk).2, hshares.addresses _ hk, hcell]

/-- the pointer has come to the cell 1000: its mark is above the first three digits of the address, and the next address
is one column further than its value -/
theorem columns_agree_below_thousand_third_cell : ∃ (config : Config) (d₀ d : Debugger), config.startOffset = 998 ∧
    Debugger.start (.text ">>") config [] 4 20 = .ok d₀ ∧ Debugger.Reaches d₀ 2 d ∧
      d.memory = ["Memory:   [  0|  0|  0|  0]", "Pointer:            ^     ", "Address:   998 999 1000 1001"] ∧
      (∃ memory pointer address, d.ShowsFields memory pointer address) ∧
      ∃ first n, d.SharesColumns 4 first n ∧ d.marks[d.machine.pointer - first]? = some " ^ " ∧
        ((columns 11 d.addresses)[d.machine.pointer - first]? =
          (columns 11 d.marks)[d.machine.pointer - first]? ↔ d.machine.pointer < 1000) := by
  let config : Config := { startOffset := 998 }
  obtain ⟨d₀, hstart, hall⟩ := columns_agree_below_thousand (.text ">>") config [] 4 20 (by decide) _ rfl
  have hshown : (Debugger.start (.text ">>") config [] 4 20).toOption.map
      (fun d => ((d.step 2).1, (d.step 2).2.memory)) =
      some (2, ["Memory:   [  0|  0|  0|  0]", "Pointer:            ^     ", "Address:   998 999 1000 1001"]) := by
    decide +kernel
  rw [hstart] at hshown
  simp only [Except.toOption, Option.map_some, Option.some.injEq, Prod.mk.injEq] at hshown
  obtain ⟨hcount, hmemory⟩ := hshown
  have hreaches : Debugger.Reaches d₀ (0 + (d₀.step 2).1) (d₀.step 2).2 := .perform 0 (.step 2) .start rfl
  rw [hcount] at hreaches
  exact ⟨config, d₀, _, rfl, hstart, hreaches, hmemory, hall 2 _ hreaches⟩

/-- on the cell 1002 the mark of the pointer is above the blank between two other addresses -/
theorem wide_addresses_are_displaced : ∃ (config : Config) (d : Debugger) (pointer address : String),
    config.startOffset = 1002 ∧ Debugger.start (.text "+") config [] 5 20 = .ok d ∧ Debugger.Reaches d 0 d ∧
      d.memory = ["Memory:   [  0|  0|  0|  0|  0]", pointer, address] ∧
      pointer = "Pointer:            ^         " ∧ address = "Address:   1000 1001 1002 1003 1004" ∧
      (columns 11 d.values)[2]? = some (19, 22) ∧ (columns 11 d.marks)[2]? = some (19, 22) ∧
      (columns 11 d.addresses)[2]? = some (21, 25) ∧ textIn address (21, 25) = "1002" ∧
      textIn pointer (20, 21) = "^" ∧ textIn address (20, 21) = " " := by
  let config : Config := { startOffset := 1002 }
  have hparse : Program.parse (.text "+") config.precomputeJumps = .ok _ := rfl
  obtain ⟨-, d, -, hstart, -⟩ := Debugger.exists_start [] 5 20 hparse
  have hshown : (Debugger.start (.text "+") config [] 5 20).toOption.map
      (fun d => (d.memory, (columns 11 d.values)[2]?, (columns 11 d.marks)[2]?, (columns 11 d.addresses)[2]?)) =
      some (["Memory:   [  0|  0|  0|  0|  0]", "Pointer:            ^         ",
        "Address:   1000 1001 1002 1003 1004"], some (19, 22), some (19, 22), some (21, 25)) := by
    decide +kernel
  rw [hstart] at hshown
  simp only [Except.toOption, Option.map_some, Option.some.injEq, Prod.mk.injEq] at hshown
  obtain ⟨hmemory, hvalues, hmarks, haddresses⟩ := hshown
  exact ⟨config, d, _, _, rfl, hstart, .start, hmemory, rfl, rfl, hvalues, hmarks, haddresses, by decide +kernel,
    by decide +kernel, by decide +kernel⟩

end Brainfuck
