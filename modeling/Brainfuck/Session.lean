/-
Sessions: programs run one after another on the same settings and streams.

Input given as data is replayed from the start for each program. Input from a stream is shared: a program goes on where
the one before stopped reading. The last prepared machine is kept, also if its run failed.
-/
import Brainfuck.Run

namespace Brainfuck

/-- the input of a session -/
inductive Feed (σ : Type) where
  /-- data, as a source that starts anew for each program -/
  | replayed (fresh : σ)
  /-- a source that all programs share -/
  | shared (rest : σ)

namespace Feed

variable {σ : Type}

def source : Feed σ → σ
  | replayed s | shared s => s

/-- the input after a program has left its source like this -/
def after (rest : σ) : Feed σ → Feed σ
  | replayed s => replayed s
  | shared _ => shared rest

end Feed

/-- a program to run: a text, or the result of parsing one -/
inductive Job where
  | script (s : Script)
  | parsed (p : Program)

/-- the program of a job, with its bracket table if so configured -/
def Job.program (config : Config) : Job → Except ParseError Program
  | script s => Program.parse s config.precomputeJumps
  | parsed p => .ok (if config.precomputeJumps then p.withTable else p)

structure Session (σ τ : Type) where
  config : Config
  feed : Feed σ
  sink : τ
  /-- the machine of the last program that could be parsed -/
  last : Option (Machine σ τ)

/-- what became of a program -/
inductive Result where
  | done (info : Info)
  | unparsed (e : ParseError)
  | stopped (s : Stop)
  | unfinished
deriving DecidableEq, Repr

namespace Session

variable {σ τ : Type}

def start (config : Config) (feed : Feed σ) (sink : τ) : Session σ τ := ⟨config, feed, sink, none⟩

/-- the machine for a job -/
def prepare (s : Session σ τ) (job : Job) : Except ParseError (Machine σ τ) :=
  (job.program s.config).map fun p => .prepare p s.config s.feed.source s.sink

/-- the session after its machine has come this far -/
def after (s : Session σ τ) (m : Machine σ τ) : Session σ τ :=
  { s with feed := s.feed.after m.source, sink := m.sink, last := some m }

/-- run a job to its end; `unlimited` is the patience without a step limit -/
def execute [ByteSource σ] [ByteSink τ] (unlimited : Nat) (s : Session σ τ) (job : Job) : Result × Session σ τ :=
  match s.prepare job with
  | .error e => (.unparsed e, s)
  | .ok m =>
    match m.execute (m.patience unlimited) with
    | (.finished, m) => (.done m.info, s.after m)
    | (.stopped stop, m) => (.stopped stop, s.after m)
    | (.unfinished, m) => (.unfinished, s.after m)

end Session

end Brainfuck
