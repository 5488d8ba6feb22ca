/-
Errors: their kinds, what each says, and where it stands.

The kinds form a tree with one root. `ErrorKind.description` words an error of a kind from the text of its one detail,
`ErrorKind.message` adds the place. `ExecutionError` is the typed form that a machine reports.
-/
import Brainfuck.Program

namespace Brainfuck

/-- the kinds of error -/
inductive ErrorKind where
  | brainfuckError
  | parseError
  | unmatchedOpenBracket
  | unmatchedCloseBracket
  | executionError
  | tapeUnderflow
  | tapeOverflow
  | cellOverflow
  | ioFailure
  | inputExhausted
  | stepLimitExceeded
deriving DecidableEq, Repr

namespace ErrorKind

def all : List ErrorKind :=
  [brainfuckError, parseError, unmatchedOpenBracket, unmatchedCloseBracket, executionError, tapeUnderflow, tapeOverflow,
    cellOverflow, ioFailure, inputExhausted, stepLimitExceeded]

def name : ErrorKind → String
  | brainfuckError => "BrainfuckError"
  | parseError => "ParseError"
  | unmatchedOpenBracket => "UnmatchedOpenBracket"
  | unmatchedCloseBracket => "UnmatchedCloseBracket"
  | executionError => "ExecutionError"
  | tapeUnderflow => "TapeUnderflow"
  | tapeOverflow => "TapeOverflow"
  | cellOverflow => "CellOverflow"
  | ioFailure => "IoFailure"
  | inputExhausted => "InputExhausted"
  | stepLimitExceeded => "StepLimitExceeded"

def ofName? (name : String) : Option ErrorKind := all.find? fun k => k.name = name

/-- the kinds above, nearest first -/
def ancestors : ErrorKind → List ErrorKind
  | brainfuckError => []
  | parseError | executionError => [brainfuckError]
  | unmatchedOpenBracket | unmatchedCloseBracket => [parseError, brainfuckError]
  | _ => [executionError, brainfuckError]

/-- what went wrong, worded with the detail of the kinds that have one -/
def description (detail : String) : ErrorKind → String
  | brainfuckError | executionError => detail
  | parseError => "malformed program"
  | unmatchedOpenBracket => "unmatched '['"
  | unmatchedCloseBracket => "unmatched ']'"
  | tapeUnderflow => "data pointer moved left of cell 0"
  | tapeOverflow => s!"data pointer moved past the last cell of a fixed tape of {detail} cells"
  | cellOverflow => s!"cell value {detail} out of range 0..255 with wrapping disabled"
  | ioFailure => s!"I/O error: {detail}"
  | inputExhausted => "input exhausted"
  | stepLimitExceeded => s!"step limit of {detail} instructions exceeded"

/-- the place of an error in a text -/
def inText (description position line column : String) : String :=
  s!"{description} at position {position} (line {line}, column {column})"

/-- the place of an error in a run -/
def inRun (description ip pointer : String) : String := s!"{description} (ip={ip}, pointer={pointer})"

end ErrorKind

namespace ParseError

def kind (e : ParseError) : ErrorKind :=
  match e.bracket with
  | .loopStart => .unmatchedOpenBracket
  | .loopEnd => .unmatchedCloseBracket

def message (e : ParseError) : String :=
  ErrorKind.inText (e.kind.description "") (toString e.place.position) (toString e.place.line) (toString e.place.column)

end ParseError

/-- why a machine stops with an error -/
inductive Cause where
  | tapeUnderflow
  | tapeOverflow (length : Nat)
  | cellOverflow (value : Int)
  | ioFailure (detail : String)
  | inputExhausted
  | stepLimitExceeded (limit : Nat)
deriving DecidableEq, Repr

namespace Cause

def kind : Cause → ErrorKind
  | tapeUnderflow => .tapeUnderflow
  | tapeOverflow _ => .tapeOverflow
  | cellOverflow _ => .cellOverflow
  | ioFailure _ => .ioFailure
  | inputExhausted => .inputExhausted
  | stepLimitExceeded _ => .stepLimitExceeded

def detail : Cause → String
  | tapeOverflow n => toString n
  | cellOverflow v => toString v
  | ioFailure d => d
  | stepLimitExceeded l => toString l
  | _ => ""

end Cause

/-- an error of a machine, with the command and the cell where it happened -/
structure ExecutionError where
  cause : Cause
  ip : Nat
  pointer : Nat
deriving DecidableEq, Repr

namespace ExecutionError

def kind (e : ExecutionError) : ErrorKind := e.cause.kind

def message (e : ExecutionError) : String :=
  ErrorKind.inRun (e.kind.description e.cause.detail) (toString e.ip) (toString e.pointer)

end ExecutionError

end Brainfuck
