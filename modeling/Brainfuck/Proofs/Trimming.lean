/-
Zeros behind the last cell that is used can be left out.

After a program the command line shows the cells up to the last one that is not zero, and those up to the pointer.

- `isLeast_usedLength`: the used length of any cells is the least from which on they are zero. So cells that are cut off
  behind it come back as zeros (`rightpad_take`), and zeros behind the cells do not change it
  (`usedLength_append_zeros`).
- `Machine.ShownBy m shown`: the list `shown` is the tape of `m`, cut off where nothing is left. It is while the pointer
  is on the tape (`shownBy_info`), and that is so at the end of every execution (`Session.exists_last_of_done`).
- `Session.shownCells_withTape`: on a tape that grows, the length of the tape and of its extensions does not show.
- `trimming_loses_nothing`: all this, for the cells that the command line prints.
-/
import Brainfuck.Proofs.Memory
import Brainfuck.Proofs.OutputFile
import Brainfuck.Proofs.Validation

namespace Brainfuck

open CommandLine (shownCells cellsText timeText)

/-! ## Cells -/

section Cells

variable {cells : Array UInt8} {n : Nat}

theorem usedLength_le_size (cells : Array UInt8) : usedLength cells ≤ cells.size := by
  rw [usedLength_le_iff]
  intro i hi
  rw [Array.getElem?_eq_none hi, Option.getD_none]

/-- the used length is the least from which on every cell is zero -/
theorem isLeast_usedLength (cells : Array UInt8) :
    IsLeast {u | ∀ (i : Nat) (h : i < cells.size), u ≤ i → cells[i] = 0} (usedLength cells) := by
  constructor
  · intro i hlt hi
    have hzero := (usedLength_le_iff cells _).1 (Nat.le_refl _) i hi
    rwa [Array.getElem?_eq_getElem hlt, Option.getD_some] at hzero
  · intro u hu
    rw [usedLength_le_iff]
    intro i hi
    rcases Nat.lt_or_ge i cells.size with hlt | hge
    · rw [Array.getElem?_eq_getElem hlt, Option.getD_some, hu i hlt hi]
    · rw [Array.getElem?_eq_none hge, Option.getD_none]

theorem usedLength_append_zeros (cells : Array UInt8) (n : Nat) :
    usedLength (cells ++ Array.replicate n 0) = usedLength cells :=
  usedLength_congr fun i => getD_append_zeros cells n i

/-- behind the used length there are zeros only -/
theorem drop_eq_zeros (h : usedLength cells ≤ n) : cells.toList.drop n = List.replicate (cells.size - n) 0 := by
  rw [List.eq_replicate_iff]
  constructor
  · rw [List.length_drop, Array.length_toList]
  · intro b hb
    obtain ⟨i, hi, rfl⟩ := List.mem_iff_getElem.1 hb
    rw [List.length_drop, Array.length_toList] at hi
    rw [List.getElem_drop, Array.getElem_toList]
    exact (isLeast_usedLength cells).1 (n + i) (by omega) (by omega)

/-- what is cut off behind the used length comes back as zeros -/
theorem rightpad_take (h : usedLength cells ≤ n) :
    (cells.toList.take n).rightpad cells.size 0 = cells.toList := by
  have hmissing : cells.size - (cells.toList.take n).length = cells.size - n := by
    rw [List.length_take, Array.length_toList]
    omega
  calc (cells.toList.take n).rightpad cells.size 0
      = cells.toList.take n ++ List.replicate (cells.size - n) 0 := by rw [List.rightpad, hmissing]
    _ = cells.toList.take n ++ cells.toList.drop n := by rw [drop_eq_zeros h]
    _ = cells.toList := List.take_append_drop n _

end Cells

/-! ## Machines -/

namespace Tape

theorem size_snapshot (t : Tape) : t.snapshot.size = t.length := by
  have := t.size_le
  simp only [snapshot, Array.size_append, Array.size_replicate]
  omega

/-- the cells that are not kept do not count -/
theorem usedLength_snapshot (t : Tape) : usedLength t.snapshot = usedLength t.cells := usedLength_append_zeros ..

theorem usedLength_le_length (t : Tape) : usedLength t.snapshot ≤ t.length := by
  have hle := usedLength_le_size t.snapshot
  rwa [size_snapshot] at hle

end Tape

namespace Machine

variable {σ τ : Type} {m m' : Machine σ τ}

/-- the list is the tape, cut off where neither the pointer nor a cell other than zero is left -/
structure ShownBy (m : Machine σ τ) (shown : List UInt8) : Prop where
  length : shown.length = max (m.pointer + 1) (usedLength m.tape.snapshot)
  length_le : shown.length ≤ m.tape.length
  cells : ∀ k < shown.length, shown[k]? = some (m.tape.read k)
  pointer_lt : m.pointer < shown.length
  lt_of_ne_zero : ∀ k, m.tape.read k ≠ 0 → k < shown.length
  padded : shown.rightpad m.tape.length 0 = m.tape.snapshot.toList

theorem shownCells_eq_map (m : Machine σ τ) :
    shownCells m.info = (List.range (max (m.pointer + 1) (usedLength m.tape.snapshot))).map m.tape.read := by
  rw [Tape.usedLength_snapshot]
  rfl

/-- the cells that are shown are a part of the tape -/
theorem shownCells_eq_take (h : m.pointer < m.tape.length) :
    shownCells m.info = m.tape.snapshot.toList.take (max (m.pointer + 1) (usedLength m.tape.snapshot)) := by
  have hused := m.tape.usedLength_le_length
  have hsize := m.tape.size_snapshot
  rw [shownCells_eq_map]
  apply List.ext_getElem
  · rw [List.length_map, List.length_range, List.length_take, Array.length_toList]
    omega
  · intro k hk hk'
    rw [List.length_take, Array.length_toList] at hk'
    have hread := m.tape.getD_snapshot k
    rw [Array.getElem?_eq_getElem (by omega), Option.getD_some] at hread
    rw [List.getElem_map, List.getElem_range, List.getElem_take, Array.getElem_toList, hread]

theorem shownBy_info (h : m.pointer < m.tape.length) : m.ShownBy (shownCells m.info) := by
  have hused := m.tape.usedLength_le_length
  have hlength : (shownCells m.info).length = max (m.pointer + 1) (usedLength m.tape.snapshot) := by
    rw [shownCells_eq_map, List.length_map, List.length_range]
  refine ⟨hlength, by omega, fun k hk => ?_, by omega, fun k hk => ?_, ?_⟩
  · rw [hlength] at hk
    rw [shownCells_eq_map, List.getElem?_map, List.getElem?_range hk, Option.map_some]
  · by_contra hge
    refine hk ?_
    rw [← m.tape.getD_snapshot]
    exact (usedLength_le_iff _ _).1 (Nat.le_refl _) k (by omega)
  · rw [shownCells_eq_take h, ← m.tape.size_snapshot]
    exact rightpad_take (Nat.le_max_right ..)

/-- machines that nobody can tell apart who only reads cells show the same cells -/
theorem SameMemory.shownCells_eq (h : m.SameMemory m') : shownCells m'.info = shownCells m.info := by
  have hread : m'.tape.read = m.tape.read := funext h.cells
  rw [shownCells_eq_map, shownCells_eq_map, h.pointer, h.cells.usedLength_eq, hread]

end Machine

/-! ## Executions -/

section Executions

variable {σ τ : Type} [ByteSource σ] [ByteSink τ] {p : Program} {c d : Config} {i : Nat} {w w' v : World σ τ}
  {stop : Option Stop}

omit [ByteSource σ] in
theorem Completes.sameButLength (hd : d.flushOutput = c.flushOutput) (hsame : w.SameButLength v)
    (h : Completes c i w stop w') : ∃ v', Completes d i v stop v' ∧ w'.SameButLength v' := by
  obtain ⟨t, rfl, ht⟩ := hsame
  cases h with
  | nothing hno => exact ⟨_, .nothing (hno.imp_left hd.trans), t, rfl, ht⟩
  | flush hflush h0 hf => exact ⟨_, .flush (hd.trans hflush) h0 hf, t, rfl, ht⟩
  | fault hflush h0 hf => exact ⟨_, .fault (w := w.onTape t) (hd.trans hflush) h0 hf, t, rfl, ht⟩

namespace Session

variable {s : Session σ τ} {job : Job} {u : Nat} {info : Info}

/-- what is said of a program that is done is said of the last machine, whose pointer is on the tape -/
theorem exists_last_of_done (hjob : job.Parsed) (h : (s.execute u job).1 = .done info) :
    ∃ m, (s.execute u job).2.last = some m ∧ m.info = info ∧ m.pointer < m.tape.length := by
  cases hm : s.prepare job with
  | error e =>
    simp only [execute, hm] at h
    cases h
  | ok m =>
    obtain ⟨p, hp, rfl⟩ := exists_place_of_prepare hjob hm
    obtain ⟨e, j, w, hx, hw⟩ := Machine.exists_place_of_execute (i := 0) hp
      (World.fits_initial s.config s.feed.source s.sink)
      ((Machine.place p s.config 0 (.initial s.config s.feed.source s.sink)).patience u)
    rw [execute_of_prepare hm hx] at h ⊢
    cases e with
    | finished => exact ⟨_, rfl, Result.done.inj h, hw.pointer_lt⟩
    | stopped | unfinished => cases h

/-- on a tape that grows, the program is done with any first length and any extensions, and shows the same cells -/
theorem shownCells_withTape (hjob : job.Parsed) (hgrow : s.config.allowGrowth = true) {length chunk : Nat}
    (hstart : s.config.startOffset < length) (hchunk : 0 < chunk) (h : (s.execute u job).1 = .done info) :
    ∃ info', ((s.withConfig (s.config.withTape length chunk hstart hchunk)).execute u job).1 = .done info' ∧
      shownCells info' = shownCells info := by
  set d := s.config.withTape length chunk hstart hchunk
  cases hm : s.prepare job with
  | error e =>
    simp only [execute, hm] at h
    cases h
  | ok m =>
    obtain ⟨p, hp, rfl, hm'⟩ := exists_places (d := d) hjob rfl hm
    have hsame : (World.initial s.config s.feed.source s.sink).SameButLength (.initial d s.feed.source s.sink) :=
      ⟨_, World.initial_eq_onTape (d := d) rfl s.feed.source s.sink, World.sameCells_initial _ d _ _⟩
    obtain ⟨e, j, w, _, ⟨t, rfl, ht⟩, hx, hx'⟩ := Machine.execute_pair_of_moves (i := 0) hp
      (fun _ _ _ hw hv hsame _ _ _ hmove =>
        hmove.sameButLength (c := s.config) (d := d) ⟨rfl, rfl, rfl, rfl⟩ rfl hgrow hgrow hw hv hsame)
      (fun _ _ _ hsame _ _ hcomplete => hcomplete.sameButLength (c := s.config) (d := d) rfl hsame)
      (World.fits_initial s.config s.feed.source s.sink) (World.fits_initial d s.feed.source s.sink) hsame
      ((Machine.place p s.config 0 (.initial s.config s.feed.source s.sink)).patience u)
    rw [execute_of_prepare hm hx] at h
    rw [execute_of_prepare hm' hx']
    cases e with
    | finished =>
      obtain rfl := Result.done.inj h
      exact ⟨_, rfl, (Machine.sameMemory_place ht).shownCells_eq⟩
    | stopped | unfinished => cases h

end Session

end Executions

/-! ## Command lines -/

namespace CommandLine

/-- what the program of a task writes to standard output -/
def Task.printed (patience : Nat) (t : Task) (s : Surroundings) : List UInt8 :=
  if t.place.isSome then [] else ((t.ran patience s).2.sink.bytes?.getD #[]).toList

variable {patience : Nat} {words : List Text} {release : Release} {s : Surroundings} {messages : String} {t : Task}
  {info : Info}

theorem Task.ran_of_source {source : Source} (h : t.arguments.source s.input = .ok source) :
    t.ran patience s =
      (Session.start t.config (.shared source) (t.sink s.files)).execute patience (.script (.text t.code)) := by
  simp only [ran, h]

/-- a program that is done had an input -/
theorem Task.exists_source_of_done (h : (t.ran patience s).1 = .done info) :
    ∃ source, t.arguments.source s.input = .ok source := by
  cases hsource : t.arguments.source s.input with
  | error f =>
    simp only [ran, hsource] at h
    cases h
  | ok source => exact ⟨source, rfl⟩

/-- when a program is done, nothing is held back: the output can be closed -/
theorem Task.flush_of_done (h : (t.ran patience s).1 = .done info) : (t.ran patience s).2.sink.flush.1 = none := by
  obtain ⟨source, hsource⟩ := exists_source_of_done h
  exact (h ▸ t.closes patience hsource).flush_of_done

/-- standard output holds nothing back -/
theorem Task.flush_of_place (hplace : t.place = none) (h : (t.ran patience s).1 = .done info) :
    (t.ran patience s).2.sink.flush.2 = (t.ran patience s).2.sink := by
  obtain ⟨source, hsource⟩ := exists_source_of_done h
  have hran : t.ran patience s =
      (Session.start t.config (.shared source) (Sink.stream #[])).execute patience (.script (.text t.code)) := by
    rw [ran_of_source hsource, sink, hplace]
    rfl
  obtain ⟨data, hstream, -⟩ := Batch.runFrom_of_toStream hran.symm
  rw [hstream]
  rfl

theorem Task.output_execute (h : (t.ran patience s).1 = .done info) :
    (t.execute patience s).output =
      t.printed patience s ++ Utf8.encode (t.arguments.report info s.elapsed).toList := by
  have hclosed := flush_of_done h
  simp only [execute, printed, h, hclosed, Conclusion.close_none]
  cases hplace : t.place with
  | some l => rfl
  | none =>
    rw [flush_of_place hplace h]
    rfl

theorem output_run (hplan : plan words s release = .ok (messages, t)) (hdebug : t.arguments.debug = false) :
    (run patience words s release).output = (t.execute patience s).output := by
  simp only [run, hplan, Task.perform, hdebug, Bool.false_eq_true, if_false]

/-- a run that ends well is one whose program is done -/
theorem exists_done_of_exit (hplan : plan words s release = .ok (messages, t)) (hdebug : t.arguments.debug = false)
    (h : (run patience words s release).verdict = .exit 0) : ∃ info, (t.ran patience s).1 = .done info := by
  simp only [run, hplan, Task.perform, hdebug, Bool.false_eq_true, if_false, Task.execute] at h
  have hverdict := Conclusion.verdict_of_close h (by simp)
  cases hresult : (t.ran patience s).1 with
  | done info => exact ⟨info, rfl⟩
  | stopped stop =>
    rw [hresult] at hverdict
    cases stop <;> cases hverdict
  | unparsed | unfinished =>
    rw [hresult] at hverdict
    cases hverdict

/-- **Trimming loses nothing.** Of any cells, the used length is the least from which on all are zero; the cells cut off
there, or behind a pointer that is further on, and filled up with zeros are all the cells; and zeros behind the cells do
not change it. So the list that a command line prints after a program that is done is its tape, cut off where neither
the pointer nor a cell other than zero is left. Where the tape may grow, the same program on the same input and output
gives the same list with any first length and any growth chunk. -/
theorem trimming_loses_nothing :
    (∀ cells : Array UInt8,
      IsLeast {u | ∀ (i : Nat) (h : i < cells.size), u ≤ i → cells[i] = 0} (usedLength cells) ∧
      (cells.toList.take (usedLength cells)).rightpad cells.size 0 = cells.toList ∧
      (∀ n, usedLength (cells ++ Array.replicate n 0) = usedLength cells) ∧
      ∀ pointer < cells.size, max (pointer + 1) (usedLength cells) ≤ cells.size ∧
        (cells.toList.take (max (pointer + 1) (usedLength cells))).rightpad cells.size 0 = cells.toList) ∧
    ∀ patience words release s messages t, plan words s release = .ok (messages, t) → t.arguments.debug = false →
      t.arguments.printCells = true →
      ((run patience words s release).verdict = .exit 0 → ∃ info, (t.ran patience s).1 = .done info) ∧
      ∀ info, (t.ran patience s).1 = .done info →
        (run patience words s release).output =
          t.printed patience s ++ Utf8.encode (
            "\n\nCELLS: " ++ Quoted.list ((shownCells info).map fun b => toString b.toNat) ++ "\n" ++
            if t.arguments.time && info.timed then timeText info s.elapsed else "").toList ∧
        (∃ m, (t.ran patience s).2.last = some m ∧ info.pointer = m.pointer ∧ info.memorySize = m.tape.length ∧
          m.ShownBy (shownCells info)) ∧
        (t.config.allowGrowth = true → ∀ (t' : Task) (s' : Surroundings) length chunk hstart hchunk,
          t'.code = t.code → t'.arguments.source s'.input = t.arguments.source s.input →
          t'.sink s'.files = t.sink s.files → t'.config = t.config.withTape length chunk hstart hchunk →
          ∃ info', (t'.ran patience s').1 = .done info' ∧ shownCells info' = shownCells info) := by
  constructor
  · intro cells
    refine ⟨isLeast_usedLength cells, rightpad_take (Nat.le_refl _), usedLength_append_zeros cells, ?_⟩
    intro pointer hpointer
    have hused := usedLength_le_size cells
    exact ⟨by omega, rightpad_take (Nat.le_max_right ..)⟩
  · intro patience words release s messages t hplan hdebug hprint
    refine ⟨exists_done_of_exit hplan hdebug, fun info hdone => ⟨?_, ?_, ?_⟩⟩
    · rw [output_run hplan hdebug, t.output_execute hdone]
      simp only [Arguments.report, hprint, if_true]
      rfl
    · obtain ⟨source, hsource⟩ := Task.exists_source_of_done hdone
      rw [Task.ran_of_source hsource] at hdone ⊢
      obtain ⟨m, hlast, rfl, hpointer⟩ := Session.exists_last_of_done (Job.parsed_script _) hdone
      exact ⟨m, hlast, rfl, rfl, Machine.shownBy_info hpointer⟩
    · intro hgrow t' s' length chunk hstart hchunk hcode hinput hsink hconfig
      obtain ⟨source, hsource⟩ := Task.exists_source_of_done hdone
      rw [Task.ran_of_source hsource] at hdone
      rw [Task.ran_of_source (hinput.trans hsource), hcode, hsink, hconfig]
      exact Session.shownCells_withTape (Job.parsed_script _) hgrow hstart hchunk hdone

/-- a pointer behind the last cell that is used, on a tape that has grown: the list goes up to the pointer, whether the
tape grows by many cells or by one -/
theorem trimming_loses_nothing_growing :
    let words : List Text := [">+>>", "--print-cells", "--tape-length", "2"]
    let s : Surroundings := ⟨[], .empty, [], "0.5"⟩
    (run 9 words s).output = Utf8.encode "\n\nCELLS: [0, 1, 0, 0]\n".toList ∧
      ∃ (t t' : Task) (info info' : Info), plan words s = .ok ("", t) ∧ t.config.growthChunk = 1024 ∧
        t'.code = t.code ∧ t'.config.tapeLength = 3 ∧ t'.config.growthChunk = 1 ∧
        (t.ran 9 s).1 = .done info ∧ shownCells info = [0, 1, 0, 0] ∧
        (t'.ran 9 s).1 = .done info' ∧ shownCells info' = [0, 1, 0, 0] := by
  intro words s
  let a : Arguments := { code := some ">+>>", printCells := true, tapeLength := some (.given 2) }
  let t : Task := ⟨a, { tapeLength := 2 }, ">+>>", none⟩
  let t' : Task := { t with config := { tapeLength := 3, growthChunk := 1 } }
  let info : Info := ⟨#[0, 1], 1026, 3, 4, 4, 0, true⟩
  have hread : Arguments.read words = .ok a := toOption_eq_some_iff.1 (by decide +kernel)
  have hplan : plan words s = .ok ("", t) := by
    simp only [plan, hread, mapError_ok, ok_bind]
    rfl
  have hdone : (t.ran 9 s).1 = .done info := by decide +kernel
  have hprinted : t.printed 9 s = [] := by decide +kernel
  have hshown : shownCells info = [0, 1, 0, 0] := by decide +kernel
  obtain ⟨-, hall⟩ := trimming_loses_nothing
  obtain ⟨-, hall⟩ := hall 9 words .early s "" t hplan rfl rfl
  obtain ⟨houtput, -, hgrowing⟩ := hall info hdone
  obtain ⟨info', hdone', hcells⟩ := hgrowing rfl t' s 3 1 (by decide) (by decide) rfl rfl rfl rfl
  rw [hprinted, hshown] at houtput
  have htext : (run 9 words s).output = Utf8.encode "\n\nCELLS: [0, 1, 0, 0]\n".toList :=
    houtput.trans (by decide +kernel)
  exact ⟨htext, t, t', info, info', hplan, rfl, rfl, rfl, rfl, hdone, hshown, hdone', hcells.trans hshown⟩

end CommandLine

end Brainfuck
