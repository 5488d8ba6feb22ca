/-
A run of the command line, as a function of what it meets.

`run` takes the words of a command line with the environment, the files and the standard input, and gives what is left:
how it ended, what went to standard output and standard error, and the files. `plan` is the part that comes before the
program starts, in a fixed order: the arguments, the file of variables, the program, the configuration, the output file.
`perform` is the rest. Exit code 0 is success, 1 a program that cannot be read or run, 2 a command line or a
configuration that is not accepted.
-/
import Brainfuck.CommandLine.Settings
import Brainfuck.CommandLine.Usage
import Brainfuck.Debugger.Console
import Brainfuck.Device
import Brainfuck.EnvFile
import Brainfuck.Session
import Brainfuck.Text.Chunks

namespace Brainfuck.CommandLine

/-- what a command line meets -/
structure Surroundings where
  environment : Environment
  files : FileTree
  /-- what stands in standard input -/
  input : List UInt8
  /-- the seconds that the program takes, as they are shown -/
  elapsed : String

/-- an error that ends a run without an exit code -/
inductive Escape where
  | path (e : PathError)
  | encoding (e : Utf8.Malformed)
  | environment (e : VariableError)
  | settings (e : SettingsError)
  | stop (s : Stop)

/-- how a run of the command line ended -/
inductive Verdict where
  | exit (code : Nat)
  /-- the arguments were refused, or help was asked for -/
  | refused (code : Nat)
  | escaped (e : Escape)
  /-- the program did not stop within the patience -/
  | unfinished

def Escape.message : Escape → String
  | path e => e.message
  | encoding e => e.message
  | environment e => e.message
  | settings e => e.message
  | stop s => s.message

/-- the words about an error that has escaped -/
def Verdict.text : Verdict → String
  | escaped e => e.message ++ "\n"
  | exit _ | refused _ | unfinished => ""

/-- what a run leaves -/
structure Outcome where
  verdict : Verdict
  output : List UInt8
  messages : String
  files : FileTree

/-- an end, with what is written to standard output and standard error -/
structure Conclusion where
  verdict : Verdict
  output : List UInt8 := []
  messages : String := ""

/-- the conclusion with messages before its own -/
def Conclusion.after (messages : String) (c : Conclusion) : Conclusion := { c with messages := messages ++ c.messages }

/-- what is left to do after the preparations -/
structure Task where
  arguments : Arguments
  config : Config
  code : String
  /-- the output file, if there is one -/
  place : Option Location

/-! ## Messages -/

namespace Log

def badStatement (line : Nat) : String :=
  s!"WARNING dotenv.main: python-dotenv could not parse statement starting at line {line}\n"

def loadingDisabled : String :=
  "DEBUG dotenv.main: python-dotenv: .env loading disabled by PYTHON_DOTENV_DISABLED environment variable\n"

def parsed (p : Program) (code : List Char) : String :=
  s!"DEBUG {programName}.parser: parsed {p.length} instructions from {code.length} characters\n"

def grown (before after : Nat) : String := s!"DEBUG {programName}.tape: tape grown from {before} to {after} cells\n"

def executed (i : Info) : String :=
  s!"DEBUG {programName}.interpreter: executed {i.instructions} instructions, {i.outputBytes} bytes written\n"

/-- one message for each time that a tape has grown by a chunk -/
def growth (m : Machine Source Sink) : String :=
  let chunk := m.config.growthChunk
  String.join ((List.range ((m.tape.length - m.config.tapeLength) / chunk)).map fun n =>
    grown (m.config.tapeLength + n * chunk) (m.config.tapeLength + (n + 1) * chunk))

end Log

/-- the cells that are shown: all used ones, and those up to the pointer -/
def shownCells (i : Info) : List UInt8 :=
  (List.range (max (i.pointer + 1) (usedLength i.cells))).map fun k => i.cells[k]?.getD 0

def cellsText (i : Info) : String :=
  s!"\n\nCELLS: {Quoted.list ((shownCells i).map fun b => toString b.toNat)}\n"

/-- the statistics, with the seconds that the run took -/
def timeText (i : Info) (time : String) : String :=
  s!"\nInstructions: {i.instructions}  Time: {time}s  Pointer: {i.pointer}  Memory: {i.memorySize} cells\n"

/-! ## The file of variables -/

/-- the variable that turns the file of variables off -/
def disablingVariable : String := "PYTHON_DOTENV_DISABLED"

/-- the character that stands for all forms of an ASCII letter; besides its capital, the letter s has a long form -/
def foldCase (c : Char) : Char := if c = '\u017F' then 's' else c.toLower

def isDisabled (env : Environment) : Bool :=
  (env.get? disablingVariable).any fun v =>
    ["1", "true", "t", "yes", "y"].contains (String.ofList (v.toList.map foldCase))

/-- the name of a file of variables -/
def envFileName : Text := ".env"

/-- the environment with the nearest file of variables, and what is said about the file -/
def loadVariables (s : Surroundings) (verbose : Bool) : String × Except Escape Environment :=
  if isDisabled s.environment then (if verbose then Log.loadingDisabled else "", .ok s.environment)
  else
    match s.files.findUpward envFileName s.files.cwd with
    | none => ("", .ok s.environment)
    | some bytes =>
      match Utf8.decode bytes with
      | .error e => ("", .error (.encoding e))
      | .ok cs =>
        let contents := EnvFile.parse (universalLines cs)
        (String.join (contents.flaws.map Log.badStatement), (s.environment.extend contents).mapError .environment)

/-! ## The program -/

/-- where the program stands -/
inductive CodeOrigin where
  | text (code : Text)
  | file (path : Text)
  | missing

def Arguments.origin (a : Arguments) : CodeOrigin :=
  match a.code, a.file with
  | some code, _ => .text code
  | none, some path => if path = [] then .missing else .file path
  | none, none => .missing

/-- the file for the output, if one is named -/
def Arguments.outputFile (a : Arguments) : Option Text := a.output.filter (· ≠ [])

/-- a path that cannot be used: the file system's refusal is reported in these words, and a path that is none escapes -/
def pathConclusion (words : String) (e : PathError) : Conclusion :=
  if e.isSystem then { verdict := .exit 1, messages := s!"{words}: {e.path.printed} ({e.message})\n" }
  else { verdict := .escaped (.path e) }

/-- the program text; a lone surrogate in it is a comment, as the character that stands for it here is -/
def Arguments.loadCode (a : Arguments) (files : FileTree) : Except Conclusion String :=
  match a.origin with
  | .missing => .error { verdict := .exit 2, messages := Usage.help }
  | .text code => .ok code.toString
  | .file path =>
    match files.read path with
    | .ok bytes => .ok (String.ofList (Script.ofFile bytes).chars)
    | .error e => .error (pathConclusion "Could not open the provided file" e)

/-- a configuration that is not accepted -/
def settingsConclusion (e : SettingsError) : Conclusion :=
  if e.isInvalidValue then { verdict := .exit 2, messages := s!"Invalid configuration: {e.message}\n" }
  else { verdict := .escaped (.settings e) }

/-- the location of the output file; the debugger has none -/
def Arguments.place (a : Arguments) (files : FileTree) : Except Conclusion (Option Location) :=
  match a.debug, a.outputFile with
  | true, _ | false, none => .ok none
  | false, some path =>
    match files.target path with
    | .ok l => .ok (some l)
    | .error e => .error (pathConclusion "Failed to open the provided file" e)

/-! ## The plan -/

/-- arguments that are not read -/
def Refusal.conclusion : Refusal → Conclusion
  | .help => { verdict := .refused 0, output := Utf8.encode Usage.help.toList }
  | .usage e => { verdict := .refused 2, messages := Usage.refusal e.message }

/-- the task of arguments that are read -/
def Arguments.task (a : Arguments) (env : Environment) (files : FileTree) : Except Conclusion Task := do
  let code ← a.loadCode files
  let config ← (a.resolve env files).mapError settingsConclusion
  let place ← a.place files
  return ⟨a, config, code, place⟩

/-- what is to be done, and the messages on the way there -/
def plan (words : List Text) (s : Surroundings) (release : Release := .early) : Except Conclusion (String × Task) := do
  let a ← (Arguments.read words release).mapError Refusal.conclusion
  let (messages, env) := loadVariables s a.verbose
  let env ← env.mapError fun e => { verdict := .escaped e, messages := messages }
  let task ← (a.task env s.files).mapError (Conclusion.after messages)
  return (messages, task)

/-! ## The debugger -/

/-- the bytes of an input that is given, which has to be characters -/
def inputBytes (t : Text) : Except Fault (List UInt8) := t.encode.mapError fun e => ⟨.invalid, e.message⟩

/-- the input of the debugger's program -/
def Arguments.debugInput (a : Arguments) : Except Fault (List UInt8) :=
  match a.input with
  | some (.given t) => inputBytes t
  | _ => .ok []

/-- the messages about a machine that has run -/
def Arguments.log (a : Arguments) (code : String) (m : Machine Source Sink) : String :=
  if a.verbose then Log.parsed m.program code.toList ++ Log.growth m else ""

/-- a debugger for the task, with the input of its program -/
def Task.debugger (t : Task) (input : List UInt8) : Except ParseError Debugger :=
  Debugger.start (.text t.code) t.config input Debugger.defaultMemoryRange Debugger.defaultProgramRange

/-- what a console has written -/
def written (texts : List ConsoleText) : List UInt8 := Utf8.encode (texts.flatMap fun t => t.shown.toList)

/-- a session of a debugger. Its orders are the lines of standard input; where that is no text, the session breaks off
when it asks for the line. -/
def Task.debug (patience : Nat) (t : Task) (s : Surroundings) (d : Debugger) : Outcome :=
  let (orders, flaw) := linesOfBytes s.input
  match Console.run patience d orders with
  | none => ⟨.unfinished, [], "", s.files⟩
  | some session =>
    let log := t.arguments.log t.code session.debugger.machine
    match flaw, session.outOfLines with
    | some e, true => ⟨.escaped (.encoding e), written session.texts.dropLast, log, s.files⟩
    | _, _ => ⟨.exit (if session.debugger.failure.isSome then 1 else 0), written session.texts, log, s.files⟩

/-- the debugger on the task -/
def Task.converse (patience : Nat) (t : Task) (s : Surroundings) : Outcome :=
  match t.arguments.debugInput with
  | .error f => ⟨.escaped (.stop (.fault f)), [], "", s.files⟩
  | .ok input =>
    match t.debugger input with
    | .error e => ⟨.exit 1, [], s!"Error: {e.message}\n", s.files⟩
    | .ok d => t.debug patience s d

/-! ## The run -/

/-- the input that was given with a flag -/
def Operand.source : Operand Text → Except Fault Source
  | .given t => (inputBytes t).map .buffer
  | .lost => .ok (.failing [] 0 ⟨.unreadable, "'list' object has no attribute 'read'"⟩)

/-- the input of the program: what was given, or standard input -/
def Arguments.source (a : Arguments) (input : List UInt8) : Except Fault Source :=
  a.input.elim (.ok (.stream input)) Operand.source

/-- where the output goes: to a stream, or to a file on a device that takes only so much -/
def Task.sink (t : Task) (files : FileTree) : Sink :=
  match t.place.bind files.limit? with
  | some limit => .limited #[] 0 0 limit
  | none => .stream #[]

/-- what becomes of the program, and the session that it leaves; an input that has no bytes ends the run before the
program is read -/
def Task.ran (patience : Nat) (t : Task) (s : Surroundings) : Result × Session Source Sink :=
  match t.arguments.source s.input with
  | .error f => (.stopped (.fault f), .start t.config (.shared (.buffer [])) (t.sink s.files))
  | .ok source =>
    (Session.start t.config (.shared source) (t.sink s.files)).execute patience (.script (.text t.code))

/-- what is written behind the program's output; a time is shown only if it was taken -/
def Arguments.report (a : Arguments) (i : Info) (time : String) : String :=
  (if a.printCells then cellsText i else "") ++ (if a.time && i.timed then timeText i time else "")

/-- how a run ends whose program did: showing a time that was not taken fails -/
def Arguments.reported (a : Arguments) (i : Info) : Verdict :=
  if a.time && !i.timed then .escaped (.settings (.flags .untimed)) else .exit 0

/-- the words about a program that failed -/
def failureText (message : String) : String := s!"\nError: {message}\n"

/-- the end that answers to what became of the program -/
def Arguments.answer (a : Arguments) (time : String) : Result → Conclusion
  | .done i =>
    { verdict := a.reported i
      output := Utf8.encode (a.report i time).toList
      messages := if a.verbose then Log.executed i else "" }
  | .unparsed e => { verdict := .exit 1, messages := failureText e.message }
  | .stopped (.error e) => { verdict := .exit 1, messages := failureText e.message }
  | .stopped stop => { verdict := .escaped (.stop stop) }
  | .unfinished => { verdict := .unfinished }

/-- the end once the output file is closed, which is done however the program came to its end: a device that refuses
what the file held back has its error take the place of everything else -/
def Conclusion.close (refusal : Option Fault) (c : Conclusion) : Conclusion :=
  match c.verdict, refusal with
  | .unfinished, _ | _, none => c
  | _, some f => { c with verdict := .escaped (.stop (.fault f)), output := [] }

/-- run the program, close its output and report -/
def Task.execute (patience : Nat) (t : Task) (s : Surroundings) : Outcome :=
  let (result, session) := t.ran patience s
  let (refusal, sink) := session.sink.flush
  let bytes := (sink.bytes?.getD #[]).toList
  let c := (t.arguments.answer s.elapsed result).close refusal
  { verdict := c.verdict
    output := (if t.place.isSome then [] else bytes) ++ c.output
    messages := session.last.elim "" (t.arguments.log t.code) ++ c.messages
    files := t.place.elim s.files fun l => s.files.set l (.file bytes) }

/-- carry out a task -/
def Task.perform (patience : Nat) (t : Task) (s : Surroundings) : Outcome :=
  if t.arguments.debug then t.converse patience s else t.execute patience s

/-- a whole run; `patience` bounds a program without a step limit -/
def run (patience : Nat) (words : List Text) (s : Surroundings) (release : Release := .early) : Outcome :=
  match plan words s release with
  | .error c => ⟨c.verdict, c.output, c.messages, s.files⟩
  | .ok (messages, t) =>
    let o := t.perform patience s
    { o with messages := messages ++ o.messages }

end Brainfuck.CommandLine
