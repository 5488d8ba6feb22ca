/-
The usage line and the help.

The usage names the flags, as many on a line as fit into 78 columns, and the program below them. The help describes each
flag from column 24 on, on a line of its own if the flag's names reach that far.
-/
import Brainfuck.CommandLine.Flag

namespace Brainfuck.CommandLine

/-- the name of the program -/
def programName : String := "bfexe"

namespace Usage

/-- columns of a line -/
def width : Nat := 78

/-- the column of the descriptions -/
def helpColumn : Nat := 24

def spaces (n : Nat) : String := String.ofList (List.replicate n ' ')

/-- lines of at most so many columns, a space between two words of a line; a word that is too long has its own -/
def fill (columns : Nat) (words : List String) : List String := go [] 0 words
where
  /-- the line begun is kept reversed, with its length -/
  go (line : List String) (length : Nat) : List String → List String
    | [] => if line.isEmpty then [] else [" ".intercalate line.reverse]
    | w :: ws =>
      if line.isEmpty then go [w] w.length ws
      else if length + 1 + w.length ≤ columns then go (w :: line) (length + 1 + w.length) ws
      else " ".intercalate line.reverse :: go [w] w.length ws

/-- what stands for a flag's operand -/
def operandText (f : Flag) : Option String :=
  match f with
  | .file => some "FILE"
  | .input => some "INPUT"
  | .output => some "OUTPUT"
  | .config => some "CONFIG"
  | .tapeLength => some "TAPE_LENGTH"
  | .maxSteps => some "MAX_STEPS"
  | .eof => some ("\x7b" ++ ",".intercalate (EofPolicy.all.map EofPolicy.name) ++ "\x7d")
  | .eofValue => some "EOF_VALUE"
  | .help | .fixedTape | .noWrap | .noFlush | .printCells | .time | .debug | .verbose => none

/-- a name of a flag with its operand -/
def call (f : Flag) (name : String) : String := name ++ ((operandText f).map (" " ++ ·)).getD ""

def description : Flag → String
  | .help => "show this help message and exit"
  | .file => "Read the program from a file instead"
  | .input => "Input data for ',' instead of STDIN"
  | .output => "Write program output to a file instead of STDOUT"
  | .config => "Path to a JSON or YAML interpreter config"
  | .tapeLength => "Initial number of cells"
  | .fixedTape => "Fail instead of growing the tape past its length"
  | .noWrap => "Fail instead of wrapping cells past 0..255"
  | .maxSteps => "Maximum number of instructions to execute"
  | .eof => "Behaviour of ',' at end of input"
  | .eofValue => "Byte stored by ',' at end of input (implies --eof value)"
  | .noFlush => "Do not flush the output after every '.'"
  | .printCells => "Print the used memory cells after execution"
  | .time => "Print execution statistics after execution"
  | .debug => "Run in the step-by-step debugger"
  | .verbose => "Enable debug logging on stderr"

/-- the usage, a flag in brackets by its first name -/
def usage : String :=
  let start := s!"usage: {programName} "
  let flags := Flag.all.map fun f => "[" ++ call f (f.names.headD "") ++ "]"
  let lines := fill (width - start.length) flags ++ ["[code]"]
  start ++ ("\n" ++ spaces start.length).intercalate lines ++ "\n"

/-- what stands before a description, and the description -/
def entry (title text : String) : String :=
  let lead := "  " ++ title
  let lines := fill (width - helpColumn) (text.splitOn " ")
  let indented := ("\n" ++ spaces helpColumn).intercalate lines ++ "\n"
  if lead.length + 2 ≤ helpColumn then lead ++ spaces (helpColumn - lead.length) ++ indented
  else lead ++ "\n" ++ spaces helpColumn ++ indented

def flagEntry (f : Flag) : String := entry (", ".intercalate (f.names.map (call f))) (description f)

def help : String :=
  usage ++ "\nA Brainfuck interpreter\n\npositional arguments:\n" ++
    entry "code" "Brainfuck program text (required unless -f is given)" ++
    "\noptions:\n" ++ String.join (Flag.all.map flagEntry)

/-- the usage with a mistake below it -/
def refusal (message : String) : String := s!"{usage}{programName}: error: {message}\n"

end Usage

end Brainfuck.CommandLine
