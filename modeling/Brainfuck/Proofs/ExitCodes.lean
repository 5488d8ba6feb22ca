/-
The command line agrees with a run on data in memory, and its exit code says which way that ended.

- `Arguments.Answers`: the exit code and the output for everything that a program can come to. A time that is to be
  shown was taken (`Arguments.benchExecution_of_resolve`).
- `Arguments.Leaves`: what a run leaves whose output goes to a file. If the device has room for all that the program
  writes, the run answers to what the program has come to; if not, the error of closing the file escapes
  (`Task.leaves_execute`).
- `RunsToFile`: a command line that runs a program on an input of its own, with its output going to a file. Options that
  are refused are refused for a value, as there is no configuration file (`Arguments.isInvalidValue_of_resolve`).
- `command_line_agrees_with_batch`: the whole account, for every such command line.
-/
import Brainfuck.Proofs.ConfigFiles
import Brainfuck.Proofs.Files
import Brainfuck.Proofs.OutputFile
import Brainfuck.Proofs.Provenance

namespace Brainfuck.CommandLine

/-! ## Options -/

namespace Arguments

variable {a : Arguments} {env : Environment} {files : FileTree}

/-- without a configuration file, options are refused for a value -/
theorem isInvalidValue_of_resolve {e : SettingsError} (hfile : a.configFile = none)
    (h : a.resolve env files = .error e) : e.isInvalidValue = true := by
  have hbase : ∀ base, a.fileConfig files base = .ok base := fun base => by rw [fileConfig, hfile]
  rcases error_of_bind h with h | ⟨base, -, h⟩
  · obtain ⟨flaw, hflaw, rfl⟩ := mapError_eq_error_iff.1 h
    exact Environment.isInvalidValue_of_config hflaw
  · rw [hbase, ok_bind] at h
    obtain ⟨flaw, hflaw, rfl⟩ := mapError_eq_error_iff.1 h
    simp [SettingsError.isInvalidValue, Draft.failsForValues_build _ _ hflaw]

/-- a time that is to be shown is taken, whatever the layers below the flags say -/
theorem benchExecution_of_resolve {c : Config} (h : a.resolve env files = .ok c) (htime : a.time = true) :
    c.benchExecution = true := by
  obtain ⟨-, es, -, hreads⟩ := reads_of_resolve h
  have hflag : (a.layers env es).merged.value .benchExecution = .bool true := by
    simp [Layers.merged, layers, value?, htime]
  exact Value.bool.inj (hreads.benchExecution.symm.trans hflag)

/-! ## Answers -/

/-- what the flags show of a program that has ended: its cells, its statistics, both or nothing -/
def statistics (a : Arguments) (i : Info) (time : String) : String :=
  (if a.printCells then cellsText i else "") ++ (if a.time then timeText i time else "")

/-- the exit code and the output that answer to what became of a program, given with the bytes that it has written -/
inductive Answers (a : Arguments) (time : String) : Result × Array UInt8 → Verdict → List UInt8 → Prop where
  | done {i : Info} {bytes : Array UInt8} :
      Answers a time (.done i, bytes) (.exit 0) (Utf8.encode (a.statistics i time).toList)
  | unparsed {e : ParseError} : Answers a time (.unparsed e, #[]) (.exit 1) []
  | failed {e : ExecutionError} {bytes : Array UInt8} : Answers a time (.stopped (.error e), bytes) (.exit 1) []
  /-- what is no error of the machine is not caught -/
  | escaped {stop : Stop} {bytes : Array UInt8} : (∀ e, stop ≠ .error e) →
      Answers a time (.stopped stop, bytes) (.escaped (.stop stop)) []
  | unfinished {bytes : Array UInt8} : Answers a time (.unfinished, bytes) .unfinished []

/-- nothing escapes if an error of the machine is all that stops the program -/
theorem Answers.ne_escaped {time : String} {r : Result × Array UInt8} {v : Verdict} {output : List UInt8}
    (h : a.Answers time r v output) (hr : ∀ stop, r.1 = .stopped stop → ∃ e, stop = .error e) (e : Escape) :
    v ≠ .escaped e := by
  cases h with
  | escaped hno =>
    obtain ⟨error, herror⟩ := hr _ rfl
    exact absurd herror (hno error)
  | _ => simp

/-- what a run leaves whose output goes to a file, where `bytes` are in the end: `r` is what its program comes to with
its output in memory -/
structure Leaves (a : Arguments) (time : String) (limit? : Option Limit) (r : Result × Array UInt8) (o : Outcome)
    (bytes : List UInt8) : Prop where
  fits : (∀ limit, limit? = some limit → r.2.size ≤ limit.room) →
    a.Answers time r o.verdict o.output ∧ bytes = r.2.toList
  full : ∀ limit, limit? = some limit → limit.room < r.2.size → r.1 ≠ .unfinished →
    o.verdict = .escaped (.stop (.fault limit.fault)) ∧ o.output = [] ∧ bytes = r.2.toList.take limit.room

theorem report_eq_statistics {i : Info} (a : Arguments) (time : String) (h : a.time = true → i.timed = true) :
    a.reported i = .exit 0 ∧ a.report i time = a.statistics i time := by
  cases htime : a.time with
  | false => simp [reported, report, statistics, htime]
  | true => simp [reported, report, statistics, htime, h htime]

/-- a time that is to be shown was taken -/
theorem answers_answer {config : Config} (a : Arguments) (time : String) {r : Result × Array UInt8}
    (hr : Batch.Orderly config r) (htime : a.time = true → config.benchExecution = true) :
    a.Answers time r (a.answer time r.1).verdict (a.answer time r.1).output := by
  cases hr with
  | @done i _ htimed =>
    obtain ⟨hverdict, hreport⟩ := a.report_eq_statistics time fun h => htimed.trans (htime h)
    simp only [answer, hverdict, hreport]
    exact .done
  | unparsed => exact .unparsed
  | @stopped stop _ =>
    cases stop with
    | error e => exact .failed
    | _ => exact .escaped (by simp)
  | unfinished => exact .unfinished

end Arguments

/-- no program ends with the exit code for what is not accepted -/
theorem Arguments.verdict_answer_ne (a : Arguments) (time : String) (r : Result) :
    (a.answer time r).verdict ≠ .exit 2 := by
  unfold answer reported
  split
  · split <;> simp
  all_goals simp

theorem Arguments.verdict_answer_ne_unfinished (a : Arguments) (time : String) {r : Result} (h : r ≠ .unfinished) :
    (a.answer time r).verdict ≠ .unfinished := by
  unfold answer reported
  split
  · split <;> simp
  · simp
  · simp
  · simp
  · exact absurd rfl h

namespace Task

variable {t : Task} {s : Surroundings} {l : Location} {patience : Nat}

/-- what is left of a task whose output goes to a file -/
theorem exists_outcome (patience : Nat) (s : Surroundings) (hplace : t.place = some l) :
    ∃ messages, t.execute patience s =
      let closed := (t.ran patience s).2.sink.flush
      let c := (t.arguments.answer s.elapsed (t.ran patience s).1).close closed.1
      ⟨c.verdict, c.output, messages, s.files.set l (.file (closed.2.bytes?.getD #[]).toList)⟩ := by
  refine ⟨(t.execute patience s).messages, ?_⟩
  simp only [execute, hplace, Option.isSome_some, if_true, List.nil_append, Option.elim_some]

/-- an input that has no bytes ends the execution before anything is written -/
theorem execute_of_fault {f : Fault} (patience : Nat) (hinput : t.arguments.source s.input = .error f)
    (hplace : t.place = some l) : ∃ messages, t.execute patience s =
      ⟨.escaped (.stop (.fault f)), [], messages, s.files.set l (.file [])⟩ := by
  obtain ⟨messages, hx⟩ := t.exists_outcome patience s hplace
  have hsink : (t.sink s.files).flush.1 = none ∧ (t.sink s.files).flush.2.bytes?.getD #[] = #[] := by
    unfold sink
    split
    · exact ⟨rfl, rfl⟩
    · exact ⟨rfl, rfl⟩
  refine ⟨messages, ?_⟩
  rw [hx]
  simp only [ran, hinput, Session.start, hsink, Arguments.answer, Conclusion.close]

/-- a task whose output goes to a file -/
theorem leaves_execute {source : Source} (patience : Nat) (hinput : t.arguments.source s.input = .ok source)
    (hplace : t.place = some l) (htime : t.arguments.time = true → t.config.benchExecution = true) :
    ∃ bytes, (t.execute patience s).files = s.files.set l (.file bytes) ∧
      t.arguments.Leaves s.elapsed (s.files.limit? l) (Batch.runFrom patience (.text t.code) source t.config)
        (t.execute patience s) bytes := by
  have hcloses := t.closes patience hinput
  have hanswers := t.arguments.answers_answer s.elapsed
    (Batch.orderly_runFrom patience (.text t.code) source t.config) htime
  obtain ⟨messages, hx⟩ := t.exists_outcome patience s hplace
  rw [hplace, Option.bind_some] at hcloses
  rw [hx]
  refine ⟨_, rfl, ?_⟩
  generalize Batch.runFrom patience (.text t.code) source t.config = r at hcloses hanswers ⊢
  obtain ⟨result, bytes⟩ := r
  generalize (t.ran patience s).1 = result' at hcloses ⊢
  generalize (t.ran patience s).2.sink.flush = closed at hcloses ⊢
  cases hcloses with
  | fits hfits hbytes =>
    constructor
    · intro _
      simp only [Conclusion.close_none, hbytes, Option.getD_some, and_true]
      exact hanswers
    · intro limit hlimit hroom
      exact absurd (hfits limit hlimit) (Nat.not_le.2 hroom)
  | @full limit result' _ hlimit hroom _ hsame hbytes =>
    constructor
    · intro hfits
      exact absurd (hfits limit hlimit) (Nat.not_le.2 hroom)
    · intro limit' hlimit' _ hended
      obtain rfl := Option.some.inj (hlimit.symm.trans hlimit')
      have hended' : result' ≠ .unfinished := by
        obtain rfl | ⟨stop, rfl⟩ := hsame
        · exact hended
        · simp
      obtain ⟨hverdict, houtput⟩ :=
        Conclusion.close_some (f := limit.fault) (t.arguments.verdict_answer_ne_unfinished s.elapsed hended')
      simp only [hbytes, Option.getD_some]
      exact ⟨hverdict, houtput, toList_take _ _⟩

end Task

/-! ## Command lines -/

/-- a command line that runs a program, on an input that is given with a flag, without the debugger and without a
configuration file, and whose output goes to a file that can be opened; no file of variables is found -/
structure RunsToFile (words : List Text) (release : Release) (s : Surroundings) (a : Arguments) (code : String)
    (operand : Operand Text) (path : Text) (l : Location) : Prop where
  words : Arguments.read words release = .ok a
  envFile : s.files.findUpward envFileName s.files.cwd = none
  debug : a.debug = false
  code : a.loadCode s.files = .ok code
  configFile : a.configFile = none
  input : a.input = some operand
  outputFile : a.outputFile = some path
  target : s.files.target path = .ok l

theorem loadVariables_of_findUpward {s : Surroundings} (h : s.files.findUpward envFileName s.files.cwd = none)
    (verbose : Bool) : ∃ messages, loadVariables s verbose = (messages, .ok s.environment) := by
  unfold loadVariables
  split
  · exact ⟨_, rfl⟩
  · rw [h]
    exact ⟨_, rfl⟩

namespace RunsToFile

variable {words : List Text} {release : Release} {s : Surroundings} {a : Arguments} {code : String}
  {operand : Operand Text} {path : Text} {l : Location}

/-- options that are refused end the run before anything is written -/
theorem run_of_refused (h : RunsToFile words release s a code operand path l) {e : SettingsError}
    (he : a.resolve s.environment s.files = .error e) (patience : Nat) :
    ∃ messages, run patience words s release = ⟨.exit 2, [], messages, s.files⟩ := by
  obtain ⟨messages, hvariables⟩ := loadVariables_of_findUpward h.envFile a.verbose
  have hvalue := Arguments.isInvalidValue_of_resolve h.configFile he
  rw [run_of_resolve_error h.words hvariables h.code he, settingsConclusion, if_pos hvalue]
  exact ⟨_, rfl⟩

/-- options that are accepted let the program run -/
theorem run_of_accepted (h : RunsToFile words release s a code operand path l) {c : Config}
    (hc : a.resolve s.environment s.files = .ok c) (patience : Nat) :
    ∃ messages, run patience words s release =
      { Task.execute patience ⟨a, c, code, some l⟩ s with messages := messages } := by
  obtain ⟨messages, hvariables⟩ := loadVariables_of_findUpward h.envFile a.verbose
  have hplace : a.place s.files = .ok (some l) := by simp only [Arguments.place, h.debug, h.outputFile, h.target]
  have htask : a.task s.environment s.files = .ok ⟨a, c, code, some l⟩ := by
    simp only [Arguments.task, h.code, hc, hplace, ok_bind, mapError_ok]
    rfl
  have hplan : plan words s release = .ok (messages, ⟨a, c, code, some l⟩) := by
    simp only [plan, h.words, hvariables, htask, mapError_ok, ok_bind]
    rfl
  simp only [run, hplan, Task.perform, h.debug, Bool.false_eq_true, if_false]
  exact ⟨_, rfl⟩

/-- an input that has no bytes escapes; on any other, the run answers to what the program comes to -/
theorem exists_bytes (h : RunsToFile words release s a code operand path l) {c : Config}
    (hc : a.resolve s.environment s.files = .ok c) (patience : Nat) :
    let o := run patience words s release
    ∃ bytes, o.verdict ≠ .exit 2 ∧ o.files = s.files.set l (.file bytes) ∧
      (∀ f, operand.source = .error f → o.verdict = .escaped (.stop (.fault f)) ∧ o.output = [] ∧ bytes = []) ∧
      ∀ source, operand.source = .ok source →
        a.Leaves s.elapsed (s.files.limit? l) (Batch.runFrom patience (.text code) source c) o bytes := by
  intro o
  set t : Task := ⟨a, c, code, some l⟩
  obtain ⟨messages, hrun⟩ := h.run_of_accepted hc patience
  have ho : o = { t.execute patience s with messages := messages } := hrun
  have hinput : a.source s.input = operand.source := by
    rw [Arguments.source, h.input]
    rfl
  have hexit : (t.execute patience s).verdict ≠ .exit 2 := by
    intro hrefused
    exact a.verdict_answer_ne s.elapsed _ (Conclusion.verdict_of_close hrefused (by simp))
  rw [ho]
  cases hsource : operand.source with
  | error f =>
    obtain ⟨_, hx⟩ := Task.execute_of_fault (t := t) patience (hinput.trans hsource) rfl
    rw [hx]
    refine ⟨[], by simp, rfl, ?_, by simp⟩
    rintro _ ⟨⟩
    exact ⟨rfl, rfl, rfl⟩
  | ok source =>
    obtain ⟨bytes, hfiles, hleaves⟩ := Task.leaves_execute (t := t) patience (hinput.trans hsource) rfl
      (Arguments.benchExecution_of_resolve hc)
    refine ⟨bytes, hexit, hfiles, by simp, ?_⟩
    rintro _ ⟨⟩
    exact ⟨hleaves.fits, hleaves.full⟩

end RunsToFile

/-- **The command line agrees with a run on data in memory.** The exit code is 2 exactly if the options are refused, and
then no file is written. Otherwise the output file holds what the program writes in memory, all of it, whether the
program fails or not, and no other file has changed; the exit code is 0 for a program that ends, and 1 for one that
cannot be parsed or fails, and nothing is put out but the cells and the statistics of one that ends. An error escapes
in these cases only: the input has no bytes, it is no text at all, or the device of the output file has not the room for
all that the program writes. -/
theorem command_line_agrees_with_batch {words : List Text} {release : Release} {s : Surroundings} {a : Arguments}
    {code : String} {operand : Operand Text} {path : Text} {l : Location}
    (h : RunsToFile words release s a code operand path l) (patience : Nat) :
    let o := run patience words s release
    (o.verdict = .exit 2 ↔ ∃ e, a.resolve s.environment s.files = .error e) ∧
      (∀ e, a.resolve s.environment s.files = .error e → o.output = [] ∧ o.files = s.files) ∧
      ∀ c, a.resolve s.environment s.files = .ok c → ∃ bytes, o.files = s.files.set l (.file bytes) ∧
        (∀ l' ≠ l, o.files.at? l' = s.files.at? l') ∧
        (s.files.limit? l = none → o.files.read path = .ok bytes) ∧
        (∀ f, operand.source = .error f → o.verdict = .escaped (.stop (.fault f)) ∧ o.output = [] ∧ bytes = []) ∧
        ∀ source, operand.source = .ok source →
          let ran := fun u => Batch.runFrom u (.text code) source c
          a.Leaves s.elapsed (s.files.limit? l) (ran patience) o bytes ∧
            (∀ u ≤ patience, (ran u).1 ≠ .unfinished → ran patience = ran u) ∧
            ∀ data, source = .buffer data → (∀ u, ran u = Batch.run u (.text code) data c) ∧
              ((∀ limit, s.files.limit? l = some limit → (ran patience).2.size ≤ limit.room) →
                ∀ e, o.verdict ≠ .escaped e) := by
  intro o
  cases hresolve : a.resolve s.environment s.files with
  | error e =>
    obtain ⟨messages, hrun⟩ := h.run_of_refused hresolve patience
    have ho : o = ⟨.exit 2, [], messages, s.files⟩ := hrun
    simp [ho]
  | ok c =>
    obtain ⟨bytes, hexit, hfiles, hfault, hleaves⟩ := h.exists_bytes hresolve patience
    have hfiles : o.files = s.files.set l (.file bytes) := hfiles
    refine ⟨iff_of_false hexit (by simp), by simp, ?_⟩
    rintro _ ⟨⟩
    refine ⟨bytes, hfiles, fun l' hl' => ?_, fun _ => ?_, hfault, fun source hsource => ?_⟩
    · rw [hfiles, FileTree.at?_set_of_ne _ _ hl']
    · rw [hfiles, FileTree.read_set_of_target h.target]
    · refine ⟨hleaves source hsource, fun u hu hended => Batch.runFrom_of_le hended hu, ?_⟩
      rintro data rfl
      have hrun := fun u => Batch.runFrom_buffer u (.text code) data c
      refine ⟨hrun, fun hfits => ((hleaves _ hsource).fits hfits).1.ne_escaped fun stop hstop => ?_⟩
      exact Batch.exists_error_of_run ((congrArg Prod.fst (hrun patience)).symm.trans hstop)

/-- a byte is written, and then a command fails: without flushes, the byte is in the file nevertheless -/
theorem command_line_agrees_with_batch_underflow :
    let words : List Text := [",.<", "-i", "a", "-o", "out", "--no-flush", "--time"]
    let s : Surroundings := ⟨[], .empty, [], "0.5"⟩
    ∃ a, RunsToFile words .late s a ",.<" (.given "a") "out" ["out"] ∧ (run 9 words s .late).verdict = .exit 1 ∧
      (run 9 words s .late).output = [] ∧ (run 9 words s .late).files.read "out" = .ok [97] := by
  intro words s
  let a : Arguments :=
    { code := some ",.<", input := some (.given "a"), output := some "out", noFlush := true, time := true }
  let c : Config := { flushOutput := false }
  have hwords : Arguments.read words .late = .ok a := toOption_eq_some_iff.1 (by decide +kernel)
  have htarget : s.files.target "out" = .ok ["out"] := toOption_eq_some_iff.1 (by decide +kernel)
  have h : RunsToFile words .late s a ",.<" (.given "a") "out" ["out"] :=
    ⟨hwords, rfl, rfl, rfl, rfl, rfl, rfl, htarget⟩
  have hc : a.resolve s.environment s.files = .ok c := toOption_eq_some_iff.1 (by decide +kernel)
  have hinput : Operand.source (.given "a") = .ok (.buffer [97]) := toOption_eq_some_iff.1 (by decide +kernel)
  have hran : Batch.runFrom 9 (.text ",.<") (.buffer [97]) c =
      (.stopped (.error ⟨.tapeUnderflow, 2, 0⟩), #[97]) := by decide +kernel
  have hlimit : s.files.limit? ["out"] = none := by decide +kernel
  obtain ⟨-, -, hall⟩ := command_line_agrees_with_batch h 9
  obtain ⟨bytes, -, -, hread, -, hleaves⟩ := hall c hc
  obtain ⟨hanswers, hbytes⟩ := (hleaves _ hinput).1.fits (by simp [hlimit])
  have hread := hread hlimit
  simp only [hran] at hanswers hbytes
  rw [hbytes] at hread
  generalize run 9 words s .late = o at hanswers hread ⊢
  obtain ⟨verdict, output, messages, files⟩ := o
  cases hanswers with
  | failed => exact ⟨a, h, rfl, rfl, hread⟩
  | escaped hno => exact absurd rfl (hno _)

/-- on a device that is always full, the program fails with an error of its own, and then the error of closing the file
escapes -/
theorem full_device_escapes :
    let words : List Text := ["+.<", "-i", "a", "-o", "/dev/full", "--no-flush"]
    let s : Surroundings := ⟨[], .empty, [], "0.5"⟩
    ∃ a c, a.resolve s.environment s.files = .ok c ∧
      Batch.run 9 (.text "+.<") (Utf8.encode "a".toList) c = (.stopped (.error ⟨.tapeUnderflow, 2, 0⟩), #[1]) ∧
      ∀ release, RunsToFile words release s a "+.<" (.given "a") "/dev/full" ["dev", "full"] ∧
        (run 9 words s release).verdict = .escaped (.stop (.fault .noSpace)) := by
  intro words s
  let a : Arguments :=
    { code := some "+.<", input := some (.given "a"), output := some "/dev/full", noFlush := true }
  let c : Config := { flushOutput := false }
  have hc : a.resolve s.environment s.files = .ok c := toOption_eq_some_iff.1 (by decide +kernel)
  have hran : Batch.run 9 (.text "+.<") (Utf8.encode "a".toList) c =
      (.stopped (.error ⟨.tapeUnderflow, 2, 0⟩), #[1]) := by decide +kernel
  refine ⟨a, c, hc, hran, fun release => ?_⟩
  have hwords : Arguments.read words release = .ok a :=
    toOption_eq_some_iff.1 (by cases release <;> decide +kernel)
  have htarget : s.files.target "/dev/full" = .ok ["dev", "full"] := toOption_eq_some_iff.1 (by decide +kernel)
  have h : RunsToFile words release s a "+.<" (.given "a") "/dev/full" ["dev", "full"] :=
    ⟨hwords, rfl, rfl, rfl, rfl, rfl, rfl, htarget⟩
  have hinput : Operand.source (.given "a") = .ok (.buffer (Utf8.encode "a".toList)) :=
    toOption_eq_some_iff.1 (by decide +kernel)
  have hlimit : s.files.limit? ["dev", "full"] = some ⟨0, 4096, .noSpace⟩ := by decide +kernel
  have hbytes : (Batch.runFrom 9 (.text "+.<") (.buffer (Utf8.encode "a".toList)) c) =
      (.stopped (.error ⟨.tapeUnderflow, 2, 0⟩), #[1]) := (Batch.runFrom_buffer ..).trans hran
  obtain ⟨bytes, -, -, -, hleaves⟩ := h.exists_bytes hc 9
  have hfull := (hleaves _ hinput).full _ hlimit
  rw [hbytes] at hfull
  exact ⟨h, (hfull (by decide) (by simp)).1⟩

end Brainfuck.CommandLine
