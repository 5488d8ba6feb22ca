/-
How a machine is configured.

The ranges of the numbers are part of the type: a `Config` has at least one cell, extends by at least one, and starts
on the tape. What a user writes is not a `Config` yet; `Brainfuck.Config.Draft` reads it.
-/

namespace Brainfuck

/-- what the input command does when no byte is left -/
inductive EofPolicy where
  /-- set the cell to zero -/
  | zero
  /-- leave the cell as it is -/
  | unchanged
  /-- stop with an error -/
  | error
  /-- store the fallback byte -/
  | value
deriving DecidableEq, Repr

namespace EofPolicy

def all : List EofPolicy := [zero, unchanged, error, value]

def name : EofPolicy → String
  | zero => "zero"
  | unchanged => "unchanged"
  | error => "error"
  | value => "value"

def ofName? (name : String) : Option EofPolicy := all.find? fun p => p.name = name

@[simp] theorem ofName?_name (p : EofPolicy) : ofName? p.name = some p := by cases p <;> rfl

end EofPolicy

/-- the settings of a machine -/
structure Config where
  /-- cells at the start -/
  tapeLength : Nat := 30000
  /-- extend the tape past its length instead of failing -/
  allowGrowth : Bool := true
  /-- cell arithmetic is modulo 256 instead of failing -/
  wrappingCells : Bool := true
  /-- how many commands may be dispatched, or `none` for no limit -/
  maxSteps : Option Nat := none
  eofPolicy : EofPolicy := .zero
  /-- the cell where the pointer starts -/
  startOffset : Nat := 0
  /-- build the bracket table before the run -/
  precomputeJumps : Bool := true
  /-- flush the sink after every byte -/
  flushOutput : Bool := true
  /-- cells added by one extension -/
  growthChunk : Nat := 1024
  /-- take the time of a run -/
  benchExecution : Bool := true
  /-- the byte stored by `EofPolicy.value` -/
  eofValue : UInt8 := 0
  tapeLength_pos : 0 < tapeLength := by omega
  growthChunk_pos : 0 < growthChunk := by omega
  startOffset_lt : startOffset < tapeLength := by omega
deriving DecidableEq, Repr

instance : Inhabited Config := ⟨{}⟩

end Brainfuck
