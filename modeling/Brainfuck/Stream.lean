/-
Where bytes come from and where they go.

The machine knows a source and a sink only through the classes `ByteSource` and `ByteSink`. Each operation returns the
stream as it is afterwards, and what went wrong if it failed; nothing is assumed of a stream, so a statement about the
machine that quantifies over them holds for every device.
-/

namespace Brainfuck

/-- in which way a stream can fail -/
inductive FaultKind where
  /-- the device reported an error -/
  | device
  /-- the reader at the other end is gone -/
  | brokenPipe
  /-- the value or the state of the stream does not allow the operation, as after closing -/
  | invalid
  /-- the end came where more was needed -/
  | endOfFile
  /-- a failure that has nothing to do with input and output -/
  | runtime
  /-- what was given as a source is none -/
  | unreadable
  /-- a number is too large to be looked at -/
  | tooLarge
deriving DecidableEq, Repr

/-- the machine reports these kinds as its own error; the others it lets through -/
def FaultKind.isInputOutput : FaultKind → Bool
  | device | brokenPipe | invalid => true
  | endOfFile | runtime | unreadable | tooLarge => false

/-- a failure of a stream -/
structure Fault where
  kind : FaultKind
  message : String
deriving DecidableEq, Repr

/-- what one read gives -/
inductive Reading where
  | byte (b : UInt8)
  | ended
  | failed (f : Fault)
deriving DecidableEq, Repr

/-- an origin of bytes -/
class ByteSource (σ : Type) where
  /-- read once -/
  next : σ → Reading × σ

/-- a destination of bytes -/
class ByteSink (τ : Type) where
  /-- write one byte -/
  write : UInt8 → τ → Option Fault × τ
  /-- pass on what is held back -/
  flush : τ → Option Fault × τ

/-- a use of a stream after closing it -/
def Fault.closed : Fault := ⟨.invalid, "I/O operation on closed file."⟩

/-- a device with no room left -/
def Fault.noSpace : Fault := ⟨.device, "[Errno 28] No space left on device"⟩

/-- what a device takes: so many bytes, which are gathered in a buffer of a size before it is asked; then it fails -/
structure Limit where
  room : Nat
  buffer : Nat
  fault : Fault
deriving DecidableEq, Repr

end Brainfuck
