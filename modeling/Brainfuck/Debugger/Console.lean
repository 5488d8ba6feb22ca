/-
The debugger's console: orders are read line by line, and the state is shown before each.

A blank line repeats the last order that was not blank, or steps if there was none. The console ends when the machine
is halted, when it is told to quit, or when no line is left.
-/
import Brainfuck.Debugger.Order

namespace Brainfuck

/-- what a console writes: a text on lines of its own, or a prompt that the answer follows -/
inductive ConsoleText where
  | printed (s : String)
  | prompt (s : String)
deriving DecidableEq, Repr

namespace ConsoleText

/-- the text as the console's reader sees it -/
def shown : ConsoleText → String
  | printed s => s ++ "\n"
  | prompt s => s

def text : ConsoleText → String
  | printed s | prompt s => s

end ConsoleText

/-- a debugger with the last order -/
structure Console where
  debugger : Debugger
  last : List Char

namespace Console

def start (d : Debugger) : Console := ⟨d, ['s']⟩

def banner : String := "BF debugger. Commands: (s)tep, (c)ontinue, (b)reak, (m)em, (h)elp, (q)uit"

def promptText : String := "(bf-dbg) "

/-- the order that a line stands for -/
def order (c : Console) (line : List Char) : List Char :=
  match strip line with
  | [] => c.last
  | order => order

/-- carry out the order of a line -/
def answer (patience : Nat) (c : Console) (line : List Char) : Option (Reply × Console) :=
  let order := c.order line
  (c.debugger.handle patience order).map fun r => (r, ⟨r.debugger, order⟩)

/-- the text before the prompt -/
def state (c : Console) : ConsoleText := .printed c.debugger.state

/-- the last text -/
def farewell (c : Console) : ConsoleText :=
  .printed (if c.debugger.machine.finished then "Execution finished." else "Debugger exited.")

/-- what a session leaves: what is written, the debugger at its end, and whether a line was asked for when none was
left -/
structure Transcript where
  texts : List ConsoleText
  debugger : Debugger
  outOfLines : Bool := false

/-- the session with texts written before it -/
def Transcript.after (texts : List ConsoleText) (t : Transcript) : Transcript := { t with texts := texts ++ t.texts }

/-- the state, and the end of the session -/
def close (c : Console) : Transcript := ⟨[c.state, c.farewell], c.debugger, false⟩

/-- the end of the session when no line is left -/
def leave (c : Console) : Transcript := ⟨[c.state, .prompt promptText, c.farewell], c.debugger, true⟩

/-- read the lines from here on -/
def loop (patience : Nat) (c : Console) : List (List Char) → Option Transcript
  | [] => some (if c.debugger.halted then c.close else c.leave)
  | line :: rest =>
    if c.debugger.halted then some c.close
    else do
      let (r, next) ← c.answer patience line
      let shown := c.state :: .prompt promptText :: r.printed.map .printed
      if r.goesOn then return (← loop patience next rest).after shown
      else return ⟨shown ++ [next.farewell], r.debugger, false⟩

/-- a whole session -/
def run (patience : Nat) (d : Debugger) (lines : List (List Char)) : Option Transcript :=
  (loop patience (start d) lines).map (·.after [.printed banner])

end Console

end Brainfuck
