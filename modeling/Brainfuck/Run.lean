/-
Running a machine.

`Machine.run` steps until the program is finished, a step stops, or the patience is used up; with a step limit,
`Machine.patience` is always enough. `Machine.complete` does what is left when a program has ended, and `Machine.info`
sums up.
-/
import Brainfuck.Machine

namespace Brainfuck

/-- how a run ended -/
inductive Ending where
  | finished
  | stopped (s : Stop)
  /-- the patience ran out before the program did -/
  | unfinished
deriving DecidableEq, Repr

/-- what is known of a run that ended -/
structure Info where
  /-- the cells at the front of the tape; those behind them are zero -/
  cells : Array UInt8
  /-- all cells, in number -/
  memorySize : Nat
  pointer : Nat
  /-- commands of the program -/
  codeLength : Nat
  /-- commands dispatched -/
  instructions : Nat
  outputBytes : Nat
  /-- the time was taken -/
  timed : Bool
deriving DecidableEq, Repr

namespace Machine

variable {σ τ : Type} [ByteSource σ] [ByteSink τ]

/-- at most `patience` steps -/
def run : Nat → Machine σ τ → Ending × Machine σ τ
  | 0, m => (if m.finished then .finished else .unfinished, m)
  | patience + 1, m =>
    if m.finished then (.finished, m)
    else
      match m.step with
      | (some s, m) => (.stopped s, m)
      | (none, m) => run patience m

theorem run_of_finished {m : Machine σ τ} (h : m.finished = true) (n : Nat) : m.run n = (.finished, m) := by
  cases n <;> simp [run, h]

theorem run_zero_of_unfinished {m : Machine σ τ} (h : m.finished = false) : m.run 0 = (.unfinished, m) := by
  simp [run, h]

theorem run_of_stop {m m' : Machine σ τ} {s : Stop} (h : m.finished = false) (hs : m.step = (some s, m')) (n : Nat) :
    m.run (n + 1) = (.stopped s, m') := by
  simp [run, h, hs]

theorem run_of_step {m m' : Machine σ τ} (h : m.finished = false) (hs : m.step = (none, m')) (n : Nat) :
    m.run (n + 1) = m'.run n := by
  simp [run, h, hs]

/-- enough steps for a machine with a limit, and a given number for one without -/
def patience (m : Machine σ τ) (unlimited : Nat) : Nat :=
  match m.config.maxSteps with
  | some limit => limit + 1
  | none => unlimited

/-- flush what the run held back -/
def complete (m : Machine σ τ) : Option Stop × Machine σ τ :=
  if m.config.flushOutput || m.outputBytes = 0 then (none, m)
  else
    match ByteSink.flush m.sink with
    | (none, sink) => (none, { m with sink := sink })
    | (some f, sink) => failStream { m with sink := sink } "output sink" f

/-- run to the end and complete -/
def execute (patience : Nat) (m : Machine σ τ) : Ending × Machine σ τ :=
  match m.run patience with
  | (.finished, m) =>
    match m.complete with
    | (none, m) => (.finished, m)
    | (some s, m) => (.stopped s, m)
  | ended => ended

omit [ByteSource σ] [ByteSink τ] in
def info (m : Machine σ τ) : Info :=
  ⟨m.tape.cells, m.tape.length, m.pointer, m.program.length, m.steps, m.outputBytes, m.config.benchExecution⟩

end Machine

end Brainfuck
