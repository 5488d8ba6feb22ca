/-
The debugger: a machine that runs in pieces.

A debugger owns a machine over buffers, a set of breakpoints, and what stopped the machine, if anything did. It only
ever steps the machine; once it is halted, nothing changes the machine any more. `Debugger.resume` may not come to an
end, so it is given patience, and answers `none` when that runs out.
-/
import Brainfuck.Device
import Brainfuck.Session

namespace Brainfuck

structure Debugger where
  machine : Machine Source Sink
  /-- in ascending order, each once -/
  breakpoints : List Int
  /-- why the machine stopped -/
  failure : Option Stop
  /-- cells shown around the pointer -/
  memoryRange : Int
  /-- commands shown around the next one -/
  programRange : Int

namespace Debugger

/-- a debugger of a program on input in memory -/
def start (code : Script) (config : Config) (input : List UInt8) (memoryRange programRange : Int) :
    Except ParseError Debugger :=
  let session : Session Source Sink := .start config (.replayed (.buffer input)) (.buffer #[])
  (session.prepare (.script code)).map fun m => ⟨m, [], none, memoryRange, programRange⟩

def defaultMemoryRange : Int := 10

def defaultProgramRange : Int := 30

/-- the program is finished, or something stopped it -/
def halted (d : Debugger) : Bool := d.machine.finished || d.failure.isSome

/-- the bytes written so far -/
def output (d : Debugger) : List UInt8 := (d.machine.sink.bytes?.getD #[]).toList

/-- the next command has a breakpoint -/
def atBreakpoint (d : Debugger) : Bool := d.breakpoints.contains (d.machine.ip : Int)

/-- up to `count` steps after `done` others; gives how many succeeded in all -/
def stepFrom (done : Nat) : Nat → Debugger → Nat × Debugger
  | 0, d => (done, d)
  | count + 1, d =>
    if d.halted then (done, d)
    else
      match d.machine.step with
      | (none, m) => stepFrom (done + 1) count { d with machine := m }
      | (some s, m) => (done, { d with machine := m, failure := some s })

/-- up to `count` steps; gives how many succeeded -/
def step (count : Int) (d : Debugger) : Nat × Debugger := d.stepFrom 0 count.toNat

/-- steps until a breakpoint or a halt -/
def resumeFrom (done : Nat) : Nat → Debugger → Option (Nat × Debugger)
  | 0, _ => none
  | patience + 1, d =>
    if d.halted || d.atBreakpoint then some (done, d)
    else
      let (n, d) := d.step 1
      resumeFrom (done + n) patience d

/-- one step, and then on to a breakpoint or a halt; gives how many steps succeeded -/
def resume (patience : Nat) (d : Debugger) : Option (Nat × Debugger) :=
  let (n, d) := d.step 1
  resumeFrom n patience d

/-- a number put in its place, or taken out if it is there -/
def toggled (i : Int) : List Int → List Int
  | [] => [i]
  | j :: rest => if i = j then rest else if i < j then i :: j :: rest else j :: toggled i rest

/-- set a breakpoint, or remove it; gives whether it is set now -/
def toggle (i : Int) (d : Debugger) : Bool × Debugger :=
  (!d.breakpoints.contains i, { d with breakpoints := toggled i d.breakpoints })

end Debugger

end Brainfuck
