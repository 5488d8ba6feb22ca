/-
The program: the command line on real files and streams.

All decisions are taken by `CommandLine.plan` and the machine; here files are looked up for it, bytes are read and
written when the machine is about to need them or has made them, and the clock is read.
-/
import Brainfuck.CommandLine.Run

namespace Brainfuck.Program.Main

open CommandLine

/-- the absolute path of a location -/
def path (l : Location) : String := "/" ++ "/".intercalate l

/-- the tree with what stands at a location -/
def look (t : FileTree) (l : Location) : IO FileTree := do
  let p := (← IO.currentDir) / path l
  if ← p.isDir then return t.add l .directory
  else if ← p.pathExists then
    try
      return t.add l (.file (← IO.FS.readBinFile p).toList)
    catch _ => return t
  else return t

/-- the location that a path means, if no name on the way is missing -/
def locate (t : FileTree) (path : Text) : Location := (FileTree.names path).foldl FileTree.down (t.start path)

/-- the tree with what stands at a path and on the way to it -/
def lookPath (t : FileTree) (path : Text) : IO FileTree := do
  let l := locate t path
  (List.range l.length).foldlM (fun t n => look t (l.take (n + 1))) t

/-- the files that a command line mentions -/
def files (a : Arguments) : IO FileTree := do
  let cwd := (FileTree.names (← IO.currentDir).toString).filter (· != [])
  let t : FileTree := { entries := [], cwd }
  let t ← lookPath t (path cwd)
  let t ← (List.range (cwd.length + 1)).foldlM (fun t n => look t (cwd.take n ++ [envFileName])) t
  [a.file, a.configFile, a.outputFile].reduceOption.foldlM lookPath t

/-- the variables that a run may look at -/
def environment (t : FileTree) : IO Environment := do
  let contents := (t.findUpward envFileName t.cwd).bind fun bytes => (Utf8.decode bytes).toOption
  let mentioned := contents.elim [] fun cs => (EnvFile.parse (universalLines cs)).names.map String.ofList
  let names := Variable.all.map Variable.name ++ disablingVariable :: mentioned
  names.eraseDups.filterMapM fun name => return (← IO.getEnv name).map (name, ·)

/-- what a command line meets, standard input aside -/
def surroundings (words : List String) : IO Surroundings := do
  let t ← match Arguments.read (words.map Text.ofString) with
    | .ok a => files a
    | .error _ => pure .empty
  return ⟨← environment t, t, [], ""⟩

/-- write bytes -/
def put (out : IO.FS.Stream) (bytes : List UInt8) : IO Unit := do
  out.write ⟨bytes.toArray⟩
  out.flush

/-- a session of the debugger -/
partial def converse (c : Console) : IO Debugger := do
  let out ← IO.getStdout
  let say (t : ConsoleText) : IO Unit := do
    out.putStr t.shown
    out.flush
  say c.state
  if c.debugger.halted then
    say c.farewell
    return c.debugger
  say (.prompt Console.promptText)
  let line ← (← IO.getStdin).getLine
  if line.isEmpty then
    say c.farewell
    return c.debugger
  match c.answer unlimited line.toList with
  | none => return c.debugger
  | some (reply, next) =>
    reply.printed.forM fun s => say (.printed s)
    if reply.goesOn then converse next
    else
      say next.farewell
      return reply.debugger
where
  unlimited : Nat := 1000000000000000000

/-- the machine with a byte of standard input, if it is about to read and has none -/
def refill (m : Machine Source Sink) : IO (Machine Source Sink) := do
  match m.source, m.program.commands[m.ip]? with
  | .stream [], some .input => return { m with source := .stream (← (← IO.getStdin).read 1).toList }
  | _, _ => return m

/-- the machine after its output has gone to the stream -/
def drain (out : IO.FS.Stream) (m : Machine Source Sink) : IO (Machine Source Sink) := do
  match m.sink with
  | .stream data =>
    if data.isEmpty then return m
    out.write ⟨data⟩
    if m.config.flushOutput then out.flush
    return { m with sink := .stream #[] }
  | _ => return m

/-- run to the end -/
partial def loop (out : IO.FS.Stream) (m : Machine Source Sink) : IO (Option Stop × Machine Source Sink) := do
  if m.finished then return (none, m)
  let (stop, m) := (← refill m).step
  let m ← drain out m
  match stop with
  | some s => return (some s, m)
  | none => loop out m

/-- six digits behind the point -/
def seconds (nanos : Nat) : String :=
  let micros := (nanos + 500) / 1000
  let digits := toString (micros % 1000000)
  s!"{micros / 1000000}." ++ String.ofList (List.replicate (6 - digits.length) '0') ++ digits

/-- the exit code of an end -/
def exitCode : Verdict → UInt32
  | .exit n | .refused n => UInt32.ofNat n
  | .escaped _ | .unfinished => 1

/-- an error that ends the run -/
def escape (f : Fault) : IO UInt32 := do
  let verdict : Verdict := .escaped (.stop (.fault f))
  (← IO.getStderr).putStr verdict.text
  return exitCode verdict

/-- run the program of a task with its input, and with its output going to a stream -/
def executeTo (t : Task) (source : Source) (out : IO.FS.Stream) : IO UInt32 := do
  let a := t.arguments
  let stderr ← IO.getStderr
  let fresh : Session Source Sink := .start t.config (.shared source) (.stream #[])
  match fresh.prepare (.script (.text t.code)) with
  | .error e =>
    stderr.putStr (failureText e.message)
    return 1
  | .ok m =>
    let started ← IO.monoNanosNow
    let (stop, m) ← loop out m
    out.flush
    let elapsed := seconds ((← IO.monoNanosNow) - started)
    stderr.putStr (a.log t.code m)
    match stop with
    | none =>
      if a.verbose then stderr.putStr (Log.executed m.info)
      (← IO.getStdout).putStr (a.report m.info elapsed)
      let verdict := a.reported m.info
      stderr.putStr verdict.text
      return exitCode verdict
    | some s =>
      stderr.putStr (failureText s.message)
      return 1

/-- run the program of a task -/
def execute (t : Task) : IO UInt32 := do
  let out ← match t.place with
    | none => IO.getStdout
    | some l => pure (.ofHandle (← IO.FS.Handle.mk (path l) .write))
  match t.arguments.source [] with
  | .error f => escape f
  | .ok source => executeTo t source out

/-- carry out a task -/
def perform (t : Task) : IO UInt32 := do
  if t.arguments.debug then
    match t.arguments.debugInput.map t.debugger with
    | .error f => escape f
    | .ok (.error e) =>
      (← IO.getStderr).putStr s!"Error: {e.message}\n"
      return 1
    | .ok (.ok d) =>
      (← IO.getStdout).putStr (ConsoleText.printed Console.banner).shown
      let d ← converse (.start d)
      (← IO.getStderr).putStr (t.arguments.log t.code d.machine)
      return if d.failure.isSome then 1 else 0
  else execute t

end Brainfuck.Program.Main

open Brainfuck Brainfuck.Program.Main in
/-- the entry point -/
def main (words : List String) : IO UInt32 := do
  let s ← surroundings words
  match CommandLine.plan (words.map Text.ofString) s with
  | .error c =>
    (← IO.getStderr).putStr (c.messages ++ c.verdict.text)
    put (← IO.getStdout) c.output
    return exitCode c.verdict
  | .ok (messages, t) =>
    (← IO.getStderr).putStr messages
    perform t
