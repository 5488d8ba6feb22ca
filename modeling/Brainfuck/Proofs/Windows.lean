/-
What the windows of a debugger show.

- `Debugger.memoryWindow_of_pos`, `Debugger.programWindow_of_pos`: a window of a positive width holds its focus, whatever
  the width and wherever the focus is; one of another width is empty. `Debugger.range'_focus`: a window is what is in
  front of its focus, the focus, and what is behind it.
- `Debugger.ShowsMemory`: the cells are on the tape, with their values and addresses, and there is one mark. It is three
  blanks or a sign for each cell (`marks_eq`), and so is below the value of the pointer's cell (`take_drop_intercalate`).
- `Debugger.ShowsProgram`: the commands are a part of the program, the next one in brackets (`program_inside`), or the
  program is at its end (`program_at_end`).
- `windows_show_the_focus`: so it is in every state of a debugger, for every two widths.
-/
import Brainfuck.Debugger.View
import Brainfuck.Proofs.Orders

namespace Brainfuck

namespace Debugger

variable {d : Debugger} {k n : Nat}

/-! ## Where a debugger is -/

/-- the machine of a debugger is in its program, or just behind it, and on its tape -/
theorem Tracks.within {code : Script} {config : Config} {input : List UInt8} {m : Machine Source Sink}
    (hm : (session config input).prepare (.script code) = .ok m) (h : Tracks m k d) :
    d.machine.ip ≤ d.machine.program.length ∧ d.machine.pointer < d.machine.tape.length := by
  obtain ⟨l, hl⟩ : ∃ l, d.machine = m.after l := by
    cases h with
    | running _ hmachine _ => exact ⟨k, hmachine⟩
    | stopped _ _ hstep _ => exact ⟨k + 1, (congrArg Prod.snd hstep).symm⟩
  obtain ⟨p, i, w, -, hw, hi, hplace⟩ := exists_place hm l
  rw [hl, hplace]
  exact ⟨hi, hw.pointer_lt⟩

/-! ## Windows -/

theorem between_eq_nil {first last : Int} (h : last ≤ first) : between first last = [] := by
  have hnone : (last - first).toNat = 0 := Int.toNat_of_nonpos (by omega)
  rw [between, hnone, List.range'_zero]

theorem between_eq_range' (first n : Nat) : between first (first + n : Nat) = List.range' first n := by
  have hcount : ((first + n : Nat) - (first : Int)).toNat = n := by omega
  rw [between, hcount, Int.toNat_natCast]

/-- a window is cut at its focus -/
theorem range'_focus {first i : Nat} (hfirst : first ≤ i) (hi : i < first + n) :
    List.range' first n = List.range' first (i - first) ++ i :: List.range' (i + 1) (first + n - (i + 1)) := by
  have hwidth : n = (i - first) + (first + n - (i + 1) + 1) := by omega
  have hfocus : first + (i - first) = i := by omega
  calc List.range' first n
      = List.range' first ((i - first) + (first + n - (i + 1) + 1)) := by rw [← hwidth]
    _ = List.range' first (i - first) ++ List.range' i (first + n - (i + 1) + 1) := by
        rw [← List.range'_append_1, hfocus]
    _ = List.range' first (i - first) ++ i :: List.range' (i + 1) (first + n - (i + 1)) := by rw [List.range'_succ]

theorem memoryWindow_of_pos (hpointer : d.machine.pointer < d.machine.tape.length) (hr : 1 ≤ d.memoryRange) :
    ∃ first n : Nat, d.memoryWindow = ((first : Int), ((first + n : Nat) : Int)) ∧
      (n : Int) = min d.memoryRange d.machine.tape.length ∧ first + n ≤ d.machine.tape.length ∧
      first ≤ d.machine.pointer ∧ d.machine.pointer < first + n := by
  have hhalf : Int.fdiv d.memoryRange 2 = d.memoryRange / 2 := Int.fdiv_eq_ediv_of_nonneg _ (by decide)
  unfold memoryWindow
  rw [hhalf]
  dsimp only
  split
  · -- the window is moved back, or the tape is shorter than the window
    refine ⟨((d.machine.tape.length : Int) - d.memoryRange).toNat, (min d.memoryRange d.machine.tape.length).toNat, ?_⟩
    rw [Prod.mk.injEq]
    omega
  · refine ⟨(d.machine.pointer - d.memoryRange / 2).toNat, d.memoryRange.toNat, ?_⟩
    rw [Prod.mk.injEq]
    omega

theorem memoryWindow_of_nonpos (hr : d.memoryRange ≤ 0) :
    d.memoryWindow.2 ≤ d.memoryWindow.1 := by
  have hhalf : Int.fdiv d.memoryRange 2 = d.memoryRange / 2 := Int.fdiv_eq_ediv_of_nonneg _ (by decide)
  unfold memoryWindow
  rw [hhalf]
  dsimp only
  split
  · dsimp only
    omega
  · dsimp only
    omega

/-- the indices of the commands shown -/
def programWindow (d : Debugger) : List Nat :=
  between d.programStart (min (d.machine.program.length : Int) (d.programStart + d.programRange))

theorem programWindow_of_pos (hip : d.machine.ip ≤ d.machine.program.length) (hp : 1 ≤ d.programRange) :
    ∃ start n : Nat, d.programWindow = List.range' start n ∧ (start : Int) = d.programStart ∧
      ((start + n : Nat) : Int) = min (d.machine.program.length : Int) (start + d.programRange) ∧
      start ≤ d.machine.ip ∧ (d.machine.ip < d.machine.program.length → d.machine.ip < start + n) ∧
      (d.machine.ip = d.machine.program.length → start + n = d.machine.program.length) := by
  have hhalf : Int.fdiv d.programRange 2 = d.programRange / 2 := Int.fdiv_eq_ediv_of_nonneg _ (by decide)
  have hstart : d.programStart = max 0 ((d.machine.ip : Int) - d.programRange / 2) := by rw [programStart, hhalf]
  obtain ⟨start, hfirst⟩ : ∃ start : Nat, (start : Int) = d.programStart := ⟨_, Int.toNat_of_nonneg (by omega)⟩
  obtain ⟨stop, hstop⟩ : ∃ stop : Nat, (stop : Int) = min (d.machine.program.length : Int) (start + d.programRange) :=
    ⟨_, Int.toNat_of_nonneg (by omega)⟩
  have hwidth : start + (stop - start) = stop := by omega
  refine ⟨start, stop - start, ?_, hfirst, ?_, ?_, ?_, ?_⟩
  · rw [programWindow, ← hfirst, ← hstop, ← hwidth, between_eq_range', hwidth]
  · rw [hwidth, hstop]
  · omega
  · omega
  · omega

theorem programWindow_of_nonpos (hp : d.programRange ≤ 0) : d.programWindow = [] := by
  refine between_eq_nil ?_
  omega

/-! ## The lines about the memory -/

/-- so many blanks -/
def blanks (n : Nat) : String := String.ofList (List.replicate n ' ')

theorem blanks_append (m n : Nat) : blanks m ++ blanks n = blanks (m + n) := by
  rw [← String.toList_inj, String.toList_append]
  simp only [blanks, String.toList_ofList, List.replicate_append_replicate]

/-- every value takes three places -/
theorem length_threeWide (b : UInt8) : (threeWide b.toNat).toList.length = 3 := by
  have hsmall : b.toNat < 10 ^ 3 := Nat.lt_of_lt_of_le b.toNat_lt (by decide)
  have hdigits : (toString b.toNat).length ≤ 3 := Nat.repr_length b.toNat 3 (by decide) hsmall
  simp only [threeWide, String.toList_append, String.toList_ofList, List.length_append, List.length_replicate,
    String.length_toList]
  omega

theorem intercalate_blanks (s : String) (b : Nat) :
    " ".intercalate (s :: List.replicate b "   ") = s ++ blanks (4 * b) := by
  induction b generalizing s with
  | zero =>
    rw [List.replicate_zero, String.intercalate_singleton]
    exact (String.append_empty).symm
  | succ b ih =>
    calc " ".intercalate (s :: List.replicate (b + 1) "   ")
        = s ++ blanks 1 ++ " ".intercalate ("   " :: List.replicate b "   ") := by
          rw [List.replicate_succ, String.intercalate_cons_cons]
          rfl
      _ = s ++ (blanks 1 ++ (blanks 3 ++ blanks (4 * b))) := by
          rw [ih, String.append_assoc]
          rfl
      _ = s ++ blanks (4 * (b + 1)) := by
          rw [blanks_append, blanks_append]
          congr 2
          omega

/-- one mark between blanks -/
theorem intercalate_marks (a b : Nat) :
    " ".intercalate (List.replicate a "   " ++ " ^ " :: List.replicate b "   ") =
      blanks (4 * a) ++ " ^ " ++ blanks (4 * b) := by
  induction a with
  | zero =>
    rw [List.replicate_zero, List.nil_append, intercalate_blanks]
    rfl
  | succ a ih =>
    have hne : List.replicate a "   " ++ " ^ " :: List.replicate b "   " ≠ [] := by simp
    calc " ".intercalate (List.replicate (a + 1) "   " ++ " ^ " :: List.replicate b "   ")
        = blanks 3 ++ blanks 1 ++ (blanks (4 * a) ++ " ^ " ++ blanks (4 * b)) := by
          rw [List.replicate_succ, List.cons_append, String.intercalate_cons_of_ne_nil hne, ih]
          rfl
      _ = blanks (4 * (a + 1)) ++ " ^ " ++ blanks (4 * b) := by
          rw [← String.append_assoc, ← String.append_assoc, blanks_append, blanks_append]
          congr 3
          omega

theorem count_marks (a b : Nat) : (blanks (4 * a) ++ " ^ " ++ blanks (4 * b)).toList.count '^' = 1 := by
  have hblanks : ∀ n, (blanks n).toList.count '^' = 0 := by
    intro n
    rw [blanks, String.toList_ofList, List.count_replicate]
    rfl
  rw [String.toList_append, String.toList_append, List.count_append, List.count_append, hblanks, hblanks]
  decide

/-- where items of one width stand -/
theorem take_drop_intercalate {sep : String} {items : List String} (hsep : sep.toList.length = 1)
    (hitems : ∀ s ∈ items, s.toList.length = 3) {j : Nat} {s : String} (hj : items[j]? = some s) :
    ((sep.intercalate items).toList.drop (4 * j)).take 3 = s.toList := by
  induction items generalizing j with
  | nil => cases hj
  | cons first rest ih =>
    have hfirst : first.toList.length = 3 := hitems first List.mem_cons_self
    cases j with
    | zero =>
      obtain rfl : first = s := Option.some.inj hj
      obtain ⟨t, ht⟩ := exists_intercalate sep first rest
      rw [ht, String.toList_append, Nat.mul_zero, List.drop_zero, ← hfirst, List.take_left]
    | succ j =>
      have hj' : rest[j]? = some s := by rwa [List.getElem?_cons_succ] at hj
      have hne : rest ≠ [] := by
        rintro rfl
        cases hj'
      have hfour : (first ++ sep).toList.length = 4 := by rw [String.toList_append, List.length_append, hfirst, hsep]
      have hskip : 4 * (j + 1) = (first ++ sep).toList.length + 4 * j := by omega
      rw [String.intercalate_cons_of_ne_nil hne, String.toList_append, hskip, ← List.drop_drop,
        List.drop_left, ih (fun s hs => hitems s (List.mem_cons_of_mem _ hs)) hj']

/-- what the lines show in a memory window of `r` cells: cells of the tape with their values and addresses, and one
mark, below the value of the pointer's cell -/
structure ShowsMemory (d : Debugger) (r : Int) : Prop where
  cells : 1 ≤ r → ∃ (first n : Nat) (values marks addresses : String),
    d.memory = ["Memory:   [" ++ values ++ "]", "Pointer:   " ++ marks, "Address:   " ++ addresses] ∧
    (n : Int) = min r d.machine.tape.length ∧ first + n ≤ d.machine.tape.length ∧
    first ≤ d.machine.pointer ∧ d.machine.pointer < first + n ∧
    (∀ i ∈ List.range' first n, d.machine.tape.get? i = .ok (d.machine.tape.read i)) ∧
    values = "|".intercalate ((List.range' first n).map fun i => threeWide (d.machine.tape.read i).toNat) ∧
    addresses = " ".intercalate ((List.range' first n).map threeWide) ∧
    marks = blanks (4 * (d.machine.pointer - first)) ++ " ^ " ++ blanks (4 * (first + n - (d.machine.pointer + 1))) ∧
    marks.toList.count '^' = 1 ∧
    (values.toList.drop (4 * (d.machine.pointer - first))).take 3 =
      (threeWide (d.machine.tape.read d.machine.pointer).toNat).toList
  nothing : r ≤ 0 → d.memory = ["Memory:   []", "Pointer:   ", "Address:   "]

theorem marks_eq {first pointer : Nat} (hfirst : first ≤ pointer) (hpointer : pointer < first + n) :
    " ".intercalate ((List.range' first n).map fun i => if i = pointer then " ^ " else "   ") =
      blanks (4 * (pointer - first)) ++ " ^ " ++ blanks (4 * (first + n - (pointer + 1))) := by
  have hbefore : (List.range' first (pointer - first)).map (fun i => if i = pointer then " ^ " else "   ") =
      List.replicate (pointer - first) "   " := by
    refine List.eq_replicate_iff.2 ⟨by rw [List.length_map, List.length_range'], fun s hs => ?_⟩
    obtain ⟨i, hi, rfl⟩ := List.mem_map.1 hs
    obtain ⟨-, hlt⟩ := List.mem_range'_1.1 hi
    exact if_neg (by omega)
  have hbehind : (List.range' (pointer + 1) (first + n - (pointer + 1))).map
      (fun i => if i = pointer then " ^ " else "   ") = List.replicate (first + n - (pointer + 1)) "   " := by
    refine List.eq_replicate_iff.2 ⟨by rw [List.length_map, List.length_range'], fun s hs => ?_⟩
    obtain ⟨i, hi, rfl⟩ := List.mem_map.1 hs
    obtain ⟨hlt, -⟩ := List.mem_range'_1.1 hi
    exact if_neg (by omega)
  rw [range'_focus hfirst hpointer, List.map_append, List.map_cons, if_pos rfl, hbefore, hbehind, intercalate_marks]

theorem showsMemory (hpointer : d.machine.pointer < d.machine.tape.length) : d.ShowsMemory d.memoryRange := by
  constructor
  case cells =>
    intro hr
    obtain ⟨first, n, hwindow, hn, hlen, hfirst, hlast⟩ := memoryWindow_of_pos hpointer hr
    have hcells : between d.memoryWindow.1 d.memoryWindow.2 = List.range' first n := by
      rw [hwindow]
      exact between_eq_range' first n
    refine ⟨first, n, _, _, _, ?_, hn, hlen, hfirst, hlast, fun i hi => ?_, rfl, rfl, rfl, count_marks _ _, ?_⟩
    · rw [memory, hcells, marks_eq hfirst hlast]
    · obtain ⟨-, hi⟩ := List.mem_range'_1.1 hi
      exact Tape.get?_of_lt (by omega)
    · refine take_drop_intercalate rfl (fun s hs => ?_) ?_
      · obtain ⟨i, -, rfl⟩ := List.mem_map.1 hs
        exact length_threeWide _
      · have hindex : d.machine.pointer - first < n := by omega
        have hfocus : first + 1 * (d.machine.pointer - first) = d.machine.pointer := by omega
        rw [List.getElem?_map, List.getElem?_range' hindex, Option.map_some, hfocus]
  case nothing =>
    intro hr
    rw [memory, between_eq_nil (memoryWindow_of_nonpos hr)]
    rfl

/-! ## The line about the program -/

/-- the text from one index to before another -/
def span (code : List Char) (i j : Nat) : String := String.ofList ((code.take j).drop i)

/-- what the line shows in a program window of `p` commands: the commands of the program, the next one in brackets -/
structure ShowsProgram (d : Debugger) (p : Int) : Prop where
  inside : 1 ≤ p → d.machine.ip < d.machine.program.length → ∃ (start stop : Nat) (c : Char),
    (start : Int) = max 0 (d.machine.ip - p.fdiv 2) ∧ (stop : Int) = min (d.machine.program.length : Int) (start + p) ∧
    start ≤ d.machine.ip ∧ d.machine.ip < stop ∧ d.machine.program.code[d.machine.ip]? = some c ∧
    d.program = span d.machine.program.code start d.machine.ip ++ "[" ++ c.toString ++ "]" ++
      span d.machine.program.code (d.machine.ip + 1) stop
  atEnd : d.machine.ip = d.machine.program.length → ∃ start : Nat, (start : Int) = max 0 (d.machine.ip - p.fdiv 2) ∧
    d.program = span d.machine.program.code start d.machine.program.length ++ "[END]"
  nothing : p ≤ 0 → d.program = if d.machine.ip < d.machine.program.length then "" else "[END]"

/-- a command as the window shows it -/
def marked (code : List Char) (ip i : Nat) : String :=
  if i = ip then "[" ++ (code[i]?.getD ' ').toString ++ "]" else (code[i]?.getD ' ').toString

variable {code : List Char} {ip i start : Nat}

theorem join_plain (hlen : i + n ≤ code.length) (hne : ip < i ∨ i + n ≤ ip) :
    String.join ((List.range' i n).map (marked code ip)) = span code i (i + n) := by
  have hplain : (List.range' i n).map (marked code ip) = (List.range' i n).map fun j => (code[j]?.getD ' ').toString := by
    refine List.map_congr_left fun j hj => if_neg ?_
    obtain ⟨hle, hlt⟩ := List.mem_range'_1.1 hj
    omega
  have hletters : (List.range' i n).map (fun j => code[j]?.getD ' ') = (code.take (i + n)).drop i := by
    refine List.ext_getElem ?_ fun j hj hj' => ?_
    · rw [List.length_map, List.length_range', List.length_drop, List.length_take]
      omega
    · rw [List.length_map, List.length_range'] at hj
      have hlt : i + j < code.length := by omega
      rw [List.getElem_map, List.getElem_range', Nat.one_mul, List.getElem_drop, List.getElem_take,
        List.getElem?_eq_getElem hlt, Option.getD_some]
  rw [hplain, ← String.toList_inj, String.toList_join, span, String.toList_ofList, ← hletters, List.flatMap_map,
    List.map_eq_flatMap]
  simp

theorem join_focus {c : Char} (hstart : start ≤ ip) (hip : ip < start + n) (hlen : start + n ≤ code.length)
    (hc : code[ip]? = some c) :
    String.join ((List.range' start n).map (marked code ip)) =
      span code start ip ++ "[" ++ c.toString ++ "]" ++ span code (ip + 1) (start + n) := by
  have hbefore : String.join ((List.range' start (ip - start)).map (marked code ip)) = span code start ip := by
    rw [join_plain (by omega) (.inr (by omega))]
    congr 1
    omega
  have hbehind : String.join ((List.range' (ip + 1) (start + n - (ip + 1))).map (marked code ip)) =
      span code (ip + 1) (start + n) := by
    rw [join_plain (by omega) (.inl (by omega))]
    congr 1
    omega
  have hfocus : marked code ip ip = "[" ++ c.toString ++ "]" := by rw [marked, if_pos rfl, hc, Option.getD_some]
  rw [range'_focus hstart hip, List.map_append, List.map_cons, String.join_append, String.join_cons, hbefore, hbehind,
    hfocus]
  simp only [String.append_assoc]

theorem length_code (p : Program) : p.code.length = p.length := by
  rw [Program.code, spell, List.length_map, Array.length_toList, Program.length]

theorem program_eq (d : Debugger) :
    d.program =
      String.join (d.programWindow.map (marked d.machine.program.code d.machine.ip)) ++
        if d.machine.program.length ≤ d.machine.ip then "[END]" else "" := by
  simp only [program, List.size_toArray, length_code, List.getElem?_toArray]
  rfl

theorem program_of_nonpos (hp : d.programRange ≤ 0) :
    d.program = if d.machine.program.length ≤ d.machine.ip then "[END]" else "" := by
  rw [program_eq, programWindow_of_nonpos hp, List.map_nil, String.join_nil, String.empty_append]

theorem program_inside (hlt : d.machine.ip < d.machine.program.length) (hp : 1 ≤ d.programRange) :
    ∃ (start stop : Nat) (c : Char), (start : Int) = d.programStart ∧
      (stop : Int) = min (d.machine.program.length : Int) (start + d.programRange) ∧ start ≤ d.machine.ip ∧
      d.machine.ip < stop ∧ d.machine.program.code[d.machine.ip]? = some c ∧
      d.program = span d.machine.program.code start d.machine.ip ++ "[" ++ c.toString ++ "]" ++
        span d.machine.program.code (d.machine.ip + 1) stop := by
  obtain ⟨start, n, hwindow, hstart, hstop, hbefore, hbehind, -⟩ := programWindow_of_pos (Nat.le_of_lt hlt) hp
  have hcode : d.machine.ip < d.machine.program.code.length := by rwa [length_code]
  have hlen : start + n ≤ d.machine.program.code.length := by
    rw [length_code]
    omega
  have hfocus := join_focus hbefore (hbehind hlt) hlen (List.getElem?_eq_getElem hcode)
  refine ⟨start, start + n, _, hstart, hstop, hbefore, hbehind hlt, List.getElem?_eq_getElem hcode, ?_⟩
  rw [program_eq, hwindow, hfocus, if_neg (Nat.not_le.2 hlt), String.append_empty]

theorem program_at_end (hend : d.machine.ip = d.machine.program.length) :
    ∃ start : Nat, (start : Int) = d.programStart ∧
      d.program = span d.machine.program.code start d.machine.program.length ++ "[END]" := by
  rcases le_or_gt d.programRange 0 with hp | hp
  · obtain ⟨start, hstart⟩ : ∃ start : Nat, (start : Int) = d.programStart :=
      ⟨_, Int.toNat_of_nonneg (Int.le_max_left 0 _)⟩
    -- the window starts behind the program
    have hbehind : (d.machine.program.code.take d.machine.program.length).length ≤ start := by
      have hhalf : Int.fdiv d.programRange 2 = d.programRange / 2 := Int.fdiv_eq_ediv_of_nonneg _ (by decide)
      rw [programStart, hhalf] at hstart
      rw [List.length_take]
      omega
    refine ⟨start, hstart, ?_⟩
    rw [program_of_nonpos hp, if_pos (Nat.le_of_eq hend.symm), span, List.drop_eq_nil_of_le hbehind, String.ofList_nil,
      String.empty_append]
  · obtain ⟨start, n, hwindow, hstart, -, hbefore, -, hstop⟩ := programWindow_of_pos (Nat.le_of_eq hend) hp
    have hplain : String.join ((List.range' start n).map (marked d.machine.program.code d.machine.ip)) =
        span d.machine.program.code start (start + n) :=
      join_plain (by rw [length_code, hstop hend]) (.inr (by rw [hstop hend, hend]))
    refine ⟨start, hstart, ?_⟩
    rw [program_eq, hwindow, hplain, hstop hend, if_pos (Nat.le_of_eq hend.symm)]

theorem showsProgram (hip : d.machine.ip ≤ d.machine.program.length) : d.ShowsProgram d.programRange where
  inside := fun hp hlt => program_inside hlt hp
  atEnd := program_at_end
  nothing := by
    intro hp
    rw [program_of_nonpos hp]
    split
    · rw [if_neg (by omega)]
    · rw [if_pos (by omega)]

end Debugger

/-- **The windows of a debugger show its focus.** A debugger of a program has the two widths that it is given, in every
state that operations lead to. In a window of a positive width the cells are on the tape, as many as the width or the
tape allows, with their values and addresses, the pointer's cell is among them, and the one mark is under its value; the
commands are a part of the program, and the next one is among them, in brackets, unless the program is finished, which
is said instead. A window of any other width shows no cell and no command. -/
theorem windows_show_the_focus (code : Script) (config : Config) (input : List UInt8)
    (memoryRange programRange : Int) (p : Program) (hp : Program.parse code config.precomputeJumps = .ok p) :
    ∃ d₀, Debugger.start code config input memoryRange programRange = .ok d₀ ∧
      ∀ k d, Debugger.Reaches d₀ k d →
        d.memoryRange = memoryRange ∧ d.programRange = programRange ∧
        d.machine.ip ≤ d.machine.program.length ∧ d.machine.program.code.length = d.machine.program.length ∧
        d.ShowsMemory memoryRange ∧ d.ShowsProgram programRange := by
  obtain ⟨m, d₀, hm, hstart, hall⟩ := Debugger.exists_start input memoryRange programRange hp
  obtain ⟨-, hmemory₀, hprogram₀⟩ := Debugger.settings_of_start hstart
  refine ⟨d₀, hstart, fun k d hd => ?_⟩
  obtain ⟨hip, hpointer⟩ := (hall k d hd).within hm
  obtain ⟨hmemory, hprogram⟩ := hd.ranges
  have hcells : d.ShowsMemory memoryRange := (hmemory.trans hmemory₀) ▸ Debugger.showsMemory hpointer
  have hcommands : d.ShowsProgram programRange := (hprogram.trans hprogram₀) ▸ Debugger.showsProgram hip
  exact ⟨hmemory.trans hmemory₀, hprogram.trans hprogram₀, hip, Debugger.length_code _, hcells, hcommands⟩

/-- the pointer's cell and the one before it, and the third command, which is the next, with the one before it -/
theorem windows_show_the_focus_second_cell : ∃ d₀ d : Debugger,
    Debugger.start (.text "+>+") default [] 2 3 = .ok d₀ ∧ Debugger.Reaches d₀ 2 d ∧
      d.ShowsMemory 2 ∧ d.memory = ["Memory:   [  1|  0]", "Pointer:        ^ ", "Address:     0   1"] ∧
      d.ShowsProgram 3 ∧ d.program = ">[+]" := by
  obtain ⟨d₀, hstart, hall⟩ := windows_show_the_focus (.text "+>+") default [] 2 3 _ rfl
  have hshown : (Debugger.start (.text "+>+") default [] 2 3).toOption.map
      (fun d => ((d.step 2).1, (d.step 2).2.memory, (d.step 2).2.program)) =
      some (2, ["Memory:   [  1|  0]", "Pointer:        ^ ", "Address:     0   1"], ">[+]") := by decide +kernel
  rw [hstart] at hshown
  simp only [Except.toOption, Option.map_some, Option.some.injEq, Prod.mk.injEq] at hshown
  obtain ⟨hcount, hmemory, hprogram⟩ := hshown
  have hreaches : Debugger.Reaches d₀ (0 + (d₀.step 2).1) (d₀.step 2).2 := .perform 0 (.step 2) .start rfl
  rw [hcount] at hreaches
  obtain ⟨-, -, -, -, hcells, hcommands⟩ := hall 2 _ hreaches
  exact ⟨d₀, _, hstart, hreaches, hcells, hmemory, hcommands, hprogram⟩

end Brainfuck
