/-
What the debugger shows: the program around the next command, the cells around the pointer, and the state as a whole.

A window starts half its width before its focus, or at the beginning; the memory window is moved back where the tape
ends. A width of zero or less shows nothing.
-/
import Brainfuck.Debugger
import Brainfuck.Text.Quoted

namespace Brainfuck.Debugger

/-- a number padded with blanks to three places -/
def threeWide (n : Nat) : String :=
  let digits := toString n
  String.ofList (List.replicate (3 - digits.length) ' ') ++ digits

/-- the whole numbers from `first` to before `last` -/
def between (first last : Int) : List Nat := List.range' first.toNat (last - first).toNat

theorem mem_between {first last : Int} (h : 0 ≤ first) {i : Nat} : i ∈ between first last ↔ first ≤ i ∧ (i : Int) < last := by
  rw [between, List.mem_range'_1]
  omega

/-- the first command shown -/
def programStart (d : Debugger) : Int := max 0 ((d.machine.ip : Int) - Int.fdiv d.programRange 2)

/-- the commands shown, the next one in brackets -/
def program (d : Debugger) : String :=
  let code := d.machine.program.code.toArray
  let ip := d.machine.ip
  let shown := (between d.programStart (min code.size (d.programStart + d.programRange))).map fun i =>
    let c := (code[i]?.getD ' ').toString
    if i = ip then "[" ++ c ++ "]" else c
  String.join shown ++ (if code.size ≤ ip then "[END]" else "")

/-- the cells shown: the first, and the one after the last -/
def memoryWindow (d : Debugger) : Int × Int :=
  let first := max 0 ((d.machine.pointer : Int) - Int.fdiv d.memoryRange 2)
  let last := min (d.machine.tape.length : Int) (first + d.memoryRange)
  if last - first < d.memoryRange then (max 0 (last - d.memoryRange), last) else (first, last)

/-- three lines: the cells, a mark under the one of the pointer, and the addresses -/
def memory (d : Debugger) : List String :=
  let shown := between d.memoryWindow.1 d.memoryWindow.2
  let values := shown.map fun i => threeWide (d.machine.tape.read i).toNat
  let marks := shown.map fun i => if i = d.machine.pointer then " ^ " else "   "
  let addresses := shown.map threeWide
  ["Memory:   [" ++ "|".intercalate values ++ "]", "Pointer:   " ++ " ".intercalate marks,
    "Address:   " ++ " ".intercalate addresses]

/-- the bytes written, quoted and as numbers -/
def outputLine (d : Debugger) : String :=
  match d.output with
  | [] => "Output:   (empty)"
  | bytes => s!"Output:   {Quoted.bytes bytes} -> {Quoted.list (bytes.map fun b => toString b.toNat)}"

/-- the line about what stopped the machine -/
def failureLines (d : Debugger) : List String :=
  match d.failure with
  | some (.error e) => [s!"Error:    {e.message}"]
  | some (.fault f) => [s!"Error:    {f.message}"]
  | some (.tape _) | some .noCommand | none => []

def state (d : Debugger) : String :=
  let m := d.machine
  "\n".intercalate
    ([s!"--- Step {m.steps} ---", s!"IP: {m.ip} / {m.program.length}   Ptr: {m.pointer}", s!"Program:  {d.program}"] ++
      d.memory ++ [d.outputLine] ++ d.failureLines)

/-- a number padded with zeros to five places -/
def fiveWide (n : Nat) : String :=
  let digits := toString n
  String.ofList (List.replicate (5 - digits.length) '0') ++ digits

/-- a line for each of `count` cells from an address on, as far as they are on the tape -/
def dump (address count : Int) (d : Debugger) : List String :=
  (between (max 0 address) (min d.machine.tape.length (address + count))).map fun i =>
    s!"[{fiveWide i}]: {(d.machine.tape.read i).toNat}"

end Brainfuck.Debugger
