/-
Programs run on data in memory.

`Batch.run` gives what a program writes and what became of it. `Batch.firstByte` asks for the first byte that a program
writes when it reads one byte, within a number of steps; a program that cannot be parsed, or that fails with an error of
the machine, has no such byte, whatever it has written. Anything else that stops it is not answered (`Unanswered`).
-/
import Brainfuck.Config.Environment
import Brainfuck.Device
import Brainfuck.Session

namespace Brainfuck.Batch

/-- run a program on input in memory; the bytes written are given also if it fails -/
def run (unlimited : Nat) (code : Script) (input : List UInt8) (config : Config) : Result × Array UInt8 :=
  let session : Session Source Sink := .start config (.replayed (.buffer input)) (.buffer #[])
  let (result, session) := session.execute unlimited (.script code)
  (result, session.sink.bytes?.getD #[])

/-- the steps that are allowed if neither the caller nor the environment limits them -/
def defaultStepLimit : Nat := 5000

/-- the byte of an integer, modulo 256 -/
def byteOf (x : Int) : UInt8 := UInt8.ofNat (x % 256).toNat

/-- why it is not answered what the first byte is -/
inductive Unanswered where
  /-- the environment, or the step limit, gives no configuration -/
  | environment (e : EnvironmentError)
  /-- what stopped the program is no error of the machine -/
  | stopped (s : Stop)
  /-- the program has not come to an end -/
  | unfinished

/-- the first byte written, given the single input byte `x` -/
def firstByte (env : Environment) (stepLimit : Option Int) (code : Script) (x : Int) :
    Except Unanswered (Option UInt8) := do
  let config ← (env.config default).mapError .environment
  let limit : Int := stepLimit.getD (config.maxSteps.getD defaultStepLimit)
  let config ← (config.replace [(.maxSteps, .int limit), (.benchExecution, .bool false)]).mapError
    fun e => .environment (.config e)
  match run limit.toNat code [byteOf x] config with
  | (.done _, bytes) => return bytes[0]?
  | (.unparsed _, _) | (.stopped (.error _), _) => return none
  | (.stopped s, _) => throw (.stopped s)
  | (.unfinished, _) => throw .unfinished

end Brainfuck.Batch
