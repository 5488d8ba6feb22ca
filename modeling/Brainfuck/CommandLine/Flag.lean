/-
The flags of the command line.

A flag has one or two names and takes no operand, a text, an integer or the name of an end-of-input policy.
`Flag.named?` finds a flag by an exact name, and `Flag.withPrefix` lists the names that begin with a text.
-/
import Brainfuck.Config
import Brainfuck.Text.Basic

namespace Brainfuck.CommandLine

/-- what a flag is followed by -/
inductive OperandKind where
  | nothing
  | text
  | integer
  | policy
deriving DecidableEq, Repr

inductive Flag where
  | help
  | file
  | input
  | output
  | config
  | tapeLength
  | fixedTape
  | noWrap
  | maxSteps
  | eof
  | eofValue
  | noFlush
  | printCells
  | time
  | debug
  | verbose
deriving DecidableEq, Repr

namespace Flag

/-- all flags in the order of the help -/
def all : List Flag :=
  [help, file, input, output, config, tapeLength, fixedTape, noWrap, maxSteps, eof, eofValue, noFlush, printCells, time,
    debug, verbose]

/-- the names of a flag, the short one first -/
def names : Flag → List String
  | help => ["-h", "--help"]
  | file => ["-f", "--file"]
  | input => ["-i", "--input"]
  | output => ["-o", "--output"]
  | config => ["--config"]
  | tapeLength => ["--tape-length"]
  | fixedTape => ["--fixed-tape"]
  | noWrap => ["--no-wrap"]
  | maxSteps => ["--max-steps"]
  | eof => ["--eof"]
  | eofValue => ["--eof-value"]
  | noFlush => ["--no-flush"]
  | printCells => ["--print-cells"]
  | time => ["--time"]
  | debug => ["--debug"]
  | verbose => ["-v", "--verbose"]

def operand : Flag → OperandKind
  | file | input | output | config => .text
  | tapeLength | maxSteps | eofValue => .integer
  | eof => .policy
  | help | fixedTape | noWrap | noFlush | printCells | time | debug | verbose => .nothing

/-- the flag as messages call it -/
def title (f : Flag) : String := "/".intercalate f.names

/-- the flag of a name -/
def named? (name : Text) : Option Flag := all.find? fun f => f.names.any fun n => Text.ofString n = name

/-- the names that begin with a text, with their flags -/
def withPrefix (text : Text) : List (String × Flag) :=
  (all.flatMap fun f => f.names.map (·, f)).filter fun x => text.isPrefixOf (Text.ofString x.1)

example (f : Flag) : f ∈ all := by cases f <;> decide

end Flag

end Brainfuck.CommandLine
