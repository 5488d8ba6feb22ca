/-
Orders to the debugger.

`Order.read` turns a line into an order, `Debugger.obey` carries it out and gives what it prints. A line whose order
lacks an argument or has one that is no integer is a bad order; further words are ignored.
-/
import Brainfuck.Debugger.View
import Brainfuck.Decimal.Numeral

namespace Brainfuck

/-- what a line tells the debugger to do -/
inductive Order where
  | nothing
  | step (count : Int)
  | resume
  | toggle (ip : Int)
  /-- show cells; without an address, from the pointer on -/
  | dump (address : Option Int) (count : Int)
  | help
  | quit
  | unknown (word : List Char)
  | bad
deriving DecidableEq, Repr

namespace Order

/-- the integer that a word spells -/
def int? (word : List Char) : Option Int := (Numeral.read word).toOption

/-- cells shown by a dump -/
def dumpCount : Int := 16

/-- an order with one argument, which must be an integer if it is there -/
def withInt (word : Option (List Char)) (fallback : Order) (order : Int → Order) : Order :=
  match word with
  | none => fallback
  | some w => ((int? w).map order).getD bad

def read (line : List Char) : Order :=
  match words line with
  | [] => nothing
  | word :: args =>
    match String.ofList word with
    | "s" | "step" => withInt args[0]? (step 1) step
    | "c" | "continue" => resume
    | "b" | "break" => withInt args[0]? bad toggle
    | "m" | "mem" =>
      withInt args[0]? (dump none dumpCount) fun address =>
        withInt args[1]? (dump address dumpCount) fun count => dump address count
    | "h" | "?" | "help" => help
    | "q" | "quit" => quit
    | _ => unknown word

def helpText : String :=
  "Debugger help:\n" ++
  "    s [n]            step n instructions (default: 1)\n" ++
  "    c                continue until a breakpoint or the end of the program\n" ++
  "    b <ip>           toggle a breakpoint at instruction index ip\n" ++
  "    m [addr] [n]     dump n cells starting at addr (default: pointer, 16)\n" ++
  "    h, ?             show this help\n" ++
  "    q                quit\n" ++
  "An empty line repeats the last command."

end Order

/-- what an order leaves: the debugger, the texts printed, and whether the session goes on -/
structure Reply where
  debugger : Debugger
  printed : List String
  goesOn : Bool

namespace Debugger

/-- carry out an order; `none` if the program does not stop within the patience -/
def obey (patience : Nat) (d : Debugger) : Order → Option Reply
  | .nothing => some ⟨d, [], true⟩
  | .step count => some ⟨(d.step count).2, [], true⟩
  | .resume =>
    (d.resume patience).map fun (_, d) =>
      ⟨d, if d.atBreakpoint && !d.halted then [s!"Breakpoint hit at {d.machine.ip}"] else [], true⟩
  | .toggle ip =>
    let (isSet, d) := d.toggle ip
    let change := if isSet then "set" else "removed"
    some ⟨d, [s!"Breakpoint {change} at {ip}"], true⟩
  | .dump address count => some ⟨d, ["\n".intercalate (d.dump (address.getD d.machine.pointer) count)], true⟩
  | .help => some ⟨d, [Order.helpText], true⟩
  | .quit => some ⟨d, [], false⟩
  | .unknown word => some ⟨d, [s!"Unknown command: {String.ofList word} (h for help)"], true⟩
  | .bad => some ⟨d, ["Bad arguments (h for help)"], true⟩

/-- carry out the order of a line -/
def handle (patience : Nat) (d : Debugger) (line : List Char) : Option Reply := d.obey patience (Order.read line)

end Debugger

end Brainfuck
