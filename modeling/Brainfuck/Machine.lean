/-
The machine: a program, a tape with a pointer, and the index of the next command.

`Machine.step` dispatches one command. It returns the machine as it is afterwards and, if it stopped, why: an error of
the machine, a fault of a stream that is no input-output fault, a cell that the tape refuses, or that there is no
command to dispatch. A command that fails is counted, and leaves the index, the pointer and the tape as they were.

Every access of a cell is one that the tape may refuse. `withCell_of_lt` and `put_of_lt` say what it comes to while the
pointer is on the tape.
-/
import Brainfuck.Config
import Brainfuck.Error
import Brainfuck.Scan
import Brainfuck.Stream
import Brainfuck.Tape

namespace Brainfuck

/-- why a machine stopped -/
inductive Stop where
  | error (e : ExecutionError)
  /-- a fault of a stream that is not the machine's to report -/
  | fault (f : Fault)
  /-- the tape refuses to read or write the cell -/
  | tape (e : TapeError)
  /-- no command stands at the index -/
  | noCommand
deriving DecidableEq, Repr

def Stop.message : Stop → String
  | .error e => e.message
  | .fault f => f.message
  | .tape e => e.message
  | .noCommand => "no command"

/-- one run of a program -/
structure Machine (σ τ : Type) where
  program : Program
  config : Config
  source : σ
  sink : τ
  tape : Tape
  pointer : Nat
  /-- the index of the next command -/
  ip : Nat
  /-- commands dispatched, failed ones counted -/
  steps : Nat
  /-- bytes that went out -/
  outputBytes : Nat

namespace Machine

variable {σ τ : Type}

/-- the machine before its first command -/
def prepare (program : Program) (config : Config) (source : σ) (sink : τ) : Machine σ τ where
  program := program
  config := config
  source := source
  sink := sink
  tape := .zeros config.tapeLength config.allowGrowth config.growthChunk
  pointer := config.startOffset
  ip := 0
  steps := 0
  outputBytes := 0

/-- every command has been dispatched -/
def finished (m : Machine σ τ) : Bool := m.program.length ≤ m.ip

/-- the cell under the pointer -/
def cell (m : Machine σ τ) : UInt8 := m.tape.read m.pointer

/-- the cell under the pointer replaced -/
def setCell (m : Machine σ τ) (v : UInt8) : Machine σ τ := { m with tape := m.tape.write m.pointer v }

/-- go on with the next command -/
def advance (m : Machine σ τ) : Option Stop × Machine σ τ := (none, { m with ip := m.ip + 1 })

/-- stop with an error here -/
def fail (m : Machine σ τ) (cause : Cause) : Option Stop × Machine σ τ :=
  (some (.error ⟨cause, m.ip, m.pointer⟩), m)

/-- stop because a stream failed; `stream` says which -/
def failStream (m : Machine σ τ) (stream : String) (f : Fault) : Option Stop × Machine σ τ :=
  if f.kind.isInputOutput then m.fail (.ioFailure s!"{stream}: {f.message}") else (some (.fault f), m)

/-- one cell to the right; the tape is extended if the pointer would leave it -/
def moveRight (m : Machine σ τ) : Option Stop × Machine σ τ :=
  if m.pointer + 1 < m.tape.length then advance { m with pointer := m.pointer + 1 }
  else if m.tape.growable then
    advance { m with tape := m.tape.grow (m.pointer + 2), pointer := m.pointer + 1 }
  else m.fail (.tapeOverflow m.tape.length)

/-- one cell to the left -/
def moveLeft (m : Machine σ τ) : Option Stop × Machine σ τ :=
  match m.pointer with
  | 0 => m.fail .tapeUnderflow
  | pointer + 1 => advance { m with pointer := pointer }

/-- go on with the cell under the pointer -/
@[inline] def withCell (m : Machine σ τ) (go : UInt8 → Option Stop × Machine σ τ) : Option Stop × Machine σ τ :=
  match m.tape.get? m.pointer with
  | .ok b => go b
  | .error e => (some (.tape e), m)

/-- put a number into the cell under the pointer -/
def put (m : Machine σ τ) (v : Int) : Option Stop × Machine σ τ :=
  match m.tape.set? m.pointer v with
  | .ok tape => advance { m with tape := tape }
  | .error e => (some (.tape e), m)

/-- put the result of a calculation into the cell; one that is no byte is taken modulo 256 or refused -/
def store (m : Machine σ τ) (v : Int) : Option Stop × Machine σ τ :=
  if 0 ≤ v ∧ v ≤ 255 then m.put v
  else if m.config.wrappingCells then m.put (v % 256)
  else m.fail (.cellOverflow v)

/-- a number added to the cell -/
def add (m : Machine σ τ) (d : Int) : Option Stop × Machine σ τ := m.withCell fun b => m.store (b.toNat + d)

/-- write the cell to the sink, and flush it if so configured -/
def output [ByteSink τ] (m : Machine σ τ) : Option Stop × Machine σ τ :=
  m.withCell fun b =>
    match ByteSink.write b m.sink with
    | (some f, sink) => failStream { m with sink := sink } "output sink" f
    | (none, sink) =>
      if m.config.flushOutput then
        match ByteSink.flush sink with
        | (some f, sink) => failStream { m with sink := sink } "output sink" f
        | (none, sink) => advance { m with sink := sink, outputBytes := m.outputBytes + 1 }
      else advance { m with sink := sink, outputBytes := m.outputBytes + 1 }

/-- read a byte into the cell; without one the policy decides -/
def input [ByteSource σ] (m : Machine σ τ) : Option Stop × Machine σ τ :=
  match ByteSource.next m.source with
  | (.failed f, source) => failStream { m with source := source } "input source" f
  | (.byte b, source) => put { m with source := source } b.toNat
  | (.ended, source) =>
    let m := { m with source := source }
    match m.config.eofPolicy with
    | .error => m.fail .inputExhausted
    | .unchanged => m.advance
    | .zero => m.put 0
    | .value => m.put m.config.eofValue.toNat

/-- go on after the partner of the bracket at the index -/
def jump (m : Machine σ τ) : Option Stop × Machine σ τ :=
  match m.program.partner? m.ip with
  | some i => advance { m with ip := i }
  | none => (some .noCommand, m)

/-- carry out a command -/
def dispatch [ByteSource σ] [ByteSink τ] (m : Machine σ τ) : Command → Option Stop × Machine σ τ
  | .right => m.moveRight
  | .left => m.moveLeft
  | .increment => m.add 1
  | .decrement => m.add (-1)
  | .output => m.output
  | .input => m.input
  | .loopStart => m.withCell fun b => if b = 0 then m.jump else m.advance
  | .loopEnd => m.withCell fun b => if b = 0 then m.advance else m.jump

/-- the limit, if it is reached -/
def limitReached (m : Machine σ τ) : Option Nat :=
  m.config.maxSteps.filter fun limit => limit ≤ m.steps

/-- dispatch the command at the index; the limit is looked at first -/
def step [ByteSource σ] [ByteSink τ] (m : Machine σ τ) : Option Stop × Machine σ τ :=
  match m.limitReached with
  | some limit => m.fail (.stepLimitExceeded limit)
  | none =>
    match m.program.commands[m.ip]? with
    | none => (some .noCommand, m)
    | some c => dispatch { m with steps := m.steps + 1 } c

theorem withCell_of_lt {m : Machine σ τ} (h : m.pointer < m.tape.length) (go : UInt8 → Option Stop × Machine σ τ) :
    m.withCell go = go m.cell := by
  simp only [withCell, Tape.get?_of_lt h, cell]

theorem put_of_lt {m : Machine σ τ} (h : m.pointer < m.tape.length) (b : UInt8) :
    m.put b.toNat = advance (m.setCell b) := by
  simp only [put, Tape.set?_of_lt h, setCell]

end Machine

end Brainfuck
