/-
Looking for the partner of a bracket by counting nesting depth.

A scan starts next to an index with depth one, whatever stands at the index, and ends where the depth reaches zero. The
index is an integer: a negative one counts from the end of the sequence, as in a ring that is cut open, and a scan that
leaves the sequence finds nothing.
-/
import Brainfuck.Program
import Brainfuck.WordSize

namespace Brainfuck

/-- the command at a signed index; a negative index counts from the end -/
def commandAt (commands : Array Command) (i : Int) : Option Command :=
  if 0 ≤ i then commands[i.toNat]?
  else if 0 ≤ i + commands.size then commands[(i + commands.size).toNat]?
  else none

theorem lt_size_of_commandAt {commands : Array Command} {i : Int} {c : Command} (h : commandAt commands i = some c) :
    i < commands.size := by
  unfold commandAt at h
  split at h
  · have := (Array.getElem?_eq_some_iff.1 h).1; omega
  · omega

theorem neg_size_le_of_commandAt {commands : Array Command} {i : Int} {c : Command}
    (h : commandAt commands i = some c) : -(commands.size : Int) ≤ i := by
  unfold commandAt at h
  split at h
  · omega
  · split at h
    · omega
    · cases h

/-- the first index after `i` at which `depth + 1` open loops are closed -/
def scanForwardFrom (commands : Array Command) (depth : Nat) (i : Int) : Option Int :=
  match _h : commandAt commands (i + 1) with
  | none => none
  | some .loopStart => scanForwardFrom commands (depth + 1) (i + 1)
  | some .loopEnd =>
    match depth with
    | 0 => some (i + 1)
    | depth + 1 => scanForwardFrom commands depth (i + 1)
  | some _ => scanForwardFrom commands depth (i + 1)
termination_by (commands.size - i).toNat
decreasing_by all_goals have := lt_size_of_commandAt _h; omega

/-- the last index before `i` at which `depth + 1` loops, read backwards, are opened -/
def scanBackwardFrom (commands : Array Command) (depth : Nat) (i : Int) : Option Int :=
  match _h : commandAt commands (i - 1) with
  | none => none
  | some .loopEnd => scanBackwardFrom commands (depth + 1) (i - 1)
  | some .loopStart =>
    match depth with
    | 0 => some (i - 1)
    | depth + 1 => scanBackwardFrom commands depth (i - 1)
  | some _ => scanBackwardFrom commands depth (i - 1)
termination_by (commands.size + i).toNat
decreasing_by all_goals have := neg_size_le_of_commandAt _h; omega

/-- why a scan finds nothing -/
inductive ScanError where
  /-- it left the program -/
  | outside
  /-- it began at a number of more than 64 bits -/
  | noIndex
deriving DecidableEq, Repr

def ScanError.message : ScanError → String
  | .outside => "tuple index out of range"
  | .noIndex => "cannot fit 'int' into an index-sized integer"

namespace Program

/-- the loop end that closes the loop around the gap after `i` -/
def scanForward (p : Program) (i : Int) : Option Int := scanForwardFrom p.commands 0 i

/-- the loop start that opens the loop around the gap before `i` -/
def scanBackward (p : Program) (i : Int) : Option Int := scanBackwardFrom p.commands 0 i

/-- a scan from an index on, forward or backward -/
def scan (p : Program) (forward : Bool) (i : Int) : Except ScanError Int :=
  let (first, found) := if forward then (i + 1, p.scanForward i) else (i - 1, p.scanBackward i)
  if fitsWord 64 first then found.elim (.error .outside) .ok else .error .noIndex

/-- the partner of the bracket at an index, from the table or by a scan -/
def partner? (p : Program) (i : Nat) : Option Nat :=
  match p.table with
  | some table => table[i]?.join
  | none =>
    match p.commands[i]? with
    | some .loopStart => (p.scanForward i).bind Int.toNat?
    | _ => (p.scanBackward i).bind Int.toNat?

end Program

end Brainfuck
