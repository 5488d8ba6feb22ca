/-
The sources and sinks at hand: buffers in memory, byte streams, text streams, closed streams, devices that fail after a
while, and files on a device that takes only so much.

A text stream without bytes below it gives the UTF-8 bytes of each character in turn, and takes a byte as the
character of that number. A text wrapper hands out the byte stream that it stands on, and closes that stream when
nobody holds the wrapper any more. A source holds only the byte stream, so its reads find it closed unless somebody else
keeps the wrapper (`Brainfuck.Origin`). A sink holds only the byte stream as well: `Sink.wrapped` is the stream of a
wrapper that is kept; that of any other is closed.

A file gathers bytes in a buffer. They are passed on to the device by a flush, or by a write that finds the buffer full;
where the device has not the room for all of them, it takes what it can and fails.
-/
import Brainfuck.Stream
import Brainfuck.Text.Basic
import Brainfuck.Text.Utf8
import Brainfuck.WordSize

namespace Brainfuck

/-- an origin of bytes -/
inductive Source where
  /-- bytes in memory -/
  | buffer (rest : List UInt8)
  /-- a byte stream -/
  | stream (rest : List UInt8)
  /-- a text stream, and the bytes left of the character begun -/
  | textStream (rest : List Char) (pending : List UInt8)
  /-- the byte stream of a text wrapper -/
  | wrapped (rest : List UInt8)
  | closed
  /-- bytes, and how many more reads succeed -/
  | failing (rest : List UInt8) (good : Nat) (fault : Fault)
deriving DecidableEq, Repr

namespace Source

/-- the next of some bytes -/
def take (again : List UInt8 → Source) : List UInt8 → Reading × Source
  | [] => (.ended, again [])
  | b :: rest => (.byte b, again rest)

def next : Source → Reading × Source
  | buffer rest => take .buffer rest
  | stream rest => take .stream rest
  | textStream rest (b :: pending) => (.byte b, textStream rest pending)
  | textStream [] [] => (.ended, textStream [] [])
  | textStream (c :: rest) [] => take (.textStream rest) (Utf8.encodeChar c)
  | wrapped rest => (.failed .closed, wrapped rest)
  | closed => (.failed .closed, closed)
  | failing rest 0 fault => (.failed fault, failing rest 0 fault)
  | failing rest (good + 1) fault => take (.failing · good fault) rest

instance : ByteSource Source where
  next := next

/-- how many bytes a buffer has left -/
def remaining? : Source → Option Nat
  | buffer rest => some rest.length
  | _ => none

end Source

/-- which calls of a sink fail, after how many that succeed -/
structure Breakage where
  /-- flushes fail, and not writes -/
  onFlush : Bool
  good : Nat
  fault : Fault
deriving DecidableEq, Repr

/-- a destination of bytes -/
inductive Sink where
  /-- bytes in memory -/
  | buffer (data : Array UInt8)
  /-- a byte stream -/
  | stream (data : Array UInt8)
  /-- a text stream, which takes any code point -/
  | textStream (data : Array CodePoint)
  /-- the byte stream of a text wrapper that is kept -/
  | wrapped (data : Array UInt8)
  | closed
  /-- a buffer that counts its flushes and may break -/
  | failing (data : Array UInt8) (flushes : Nat) (breakage : Option Breakage)
  /-- a file on a device with a limit: all bytes it took, how many came before those in its buffer, and how many the
  device has -/
  | limited (data : Array UInt8) (base passed : Nat) (limit : Limit)
deriving DecidableEq, Repr

namespace Sink

/-- the byte of a number, or a fault in these words -/
def byteOf (refusal : String) (v : Int) : Except Fault UInt8 :=
  if 0 ≤ v ∧ v < 256 then .ok (UInt8.ofNat v.toNat) else .error ⟨.invalid, refusal⟩

/-- append the byte of a number -/
def push (again : Array UInt8 → Sink) (data : Array UInt8) (refusal : String) (v : Int) : Option Fault × Sink :=
  match byteOf refusal v with
  | .ok b => (none, again (data.push b))
  | .error f => (some f, again data)

theorem byteOf_byte (refusal : String) (b : UInt8) : byteOf refusal b.toNat = .ok b := by
  have hb := b.toNat_lt
  have hrange : 0 ≤ (b.toNat : Int) ∧ (b.toNat : Int) < 256 := by omega
  simp only [byteOf, if_pos hrange, Int.toNat_natCast, UInt8.ofNat_toNat]

theorem push_byte (again : Array UInt8 → Sink) (data : Array UInt8) (refusal : String) (b : UInt8) :
    push again data refusal b.toNat = (none, again (data.push b)) := by
  rw [push, byteOf_byte]

/-- a number that is no code point; only one of 32 bits is looked at -/
def noCodePoint (v : Int) : Fault :=
  if fitsWord 32 v then ⟨.invalid, "chr() arg not in range(0x110000)"⟩
  else ⟨.tooLarge, "Python int too large to convert to C int"⟩

/-- write a number; a sink of bytes takes 0 to 255, a text stream every code point -/
def put (v : Int) : Sink → Option Fault × Sink
  | buffer data => push .buffer data "byte must be in range(0, 256)" v
  | stream data => push .stream data "bytes must be in range(0, 256)" v
  | wrapped data => push .wrapped data "bytes must be in range(0, 256)" v
  | textStream data =>
    if 0 ≤ v ∧ v < 0x110000 then (none, textStream (data.push (.ofNat v.toNat)))
    else (some (noCodePoint v), textStream data)
  | closed =>
    match byteOf "bytes must be in range(0, 256)" v with
    | .ok _ => (some .closed, closed)
    | .error f => (some f, closed)
  | failing data flushes none => push (.failing · flushes none) data "byte must be in range(0, 256)" v
  | failing data flushes (some ⟨true, good, fault⟩) =>
    push (.failing · flushes (some ⟨true, good, fault⟩)) data "byte must be in range(0, 256)" v
  | failing data flushes (some ⟨false, 0, fault⟩) => (some fault, failing data flushes (some ⟨false, 0, fault⟩))
  | failing data flushes (some ⟨false, good + 1, fault⟩) =>
    push (.failing · flushes (some ⟨false, good, fault⟩)) data "byte must be in range(0, 256)" v
  | limited data base passed limit =>
    match byteOf "bytes must be in range(0, 256)" v with
    | .ok b =>
      if data.size < base + limit.buffer then (none, limited (data.push b) base passed limit)
      else if data.size ≤ limit.room then (none, limited (data.push b) data.size data.size limit)
      else (some limit.fault, limited data base limit.room limit)
    | .error f => (some f, limited data base passed limit)

/-- every byte is a code point -/
theorem put_textStream (b : UInt8) (data : Array CodePoint) :
    put b.toNat (textStream data) = (none, textStream (data.push (.ofNat b.toNat))) := by
  have hb := b.toNat_lt
  have hrange : 0 ≤ (b.toNat : Int) ∧ (b.toNat : Int) < 0x110000 := by omega
  simp only [put, if_pos hrange, Int.toNat_natCast]

/-- a byte goes into the buffer of the file; if that is full, it is passed on first -/
theorem put_limited (b : UInt8) (data : Array UInt8) (base passed : Nat) (limit : Limit) :
    put b.toNat (limited data base passed limit) =
      if data.size < base + limit.buffer then (none, limited (data.push b) base passed limit)
      else if data.size ≤ limit.room then (none, limited (data.push b) data.size data.size limit)
      else (some limit.fault, limited data base limit.room limit) := by
  simp only [put, byteOf_byte]

def flush : Sink → Option Fault × Sink
  | closed => (some .closed, closed)
  | failing data flushes (some ⟨true, 0, fault⟩) => (some fault, failing data flushes (some ⟨true, 0, fault⟩))
  | failing data flushes (some ⟨true, good + 1, fault⟩) =>
    (none, failing data (flushes + 1) (some ⟨true, good, fault⟩))
  | failing data flushes breakage => (none, failing data (flushes + 1) breakage)
  | limited data base _ limit =>
    if data.size ≤ limit.room then (none, limited data data.size data.size limit)
    else (some limit.fault, limited data base limit.room limit)
  | s => (none, s)

instance : ByteSink Sink where
  write b := put b.toNat
  flush := flush

/-- the bytes stored, if the sink stores bytes -/
def bytes? : Sink → Option (Array UInt8)
  | buffer data | stream data | wrapped data | failing data _ _ => some data
  | limited data _ passed _ => some (data.take passed)
  | textStream _ | closed => none

end Sink

end Brainfuck
