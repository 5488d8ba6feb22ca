/-
What a caller hands over as the input of a session.

Data goes into a buffer, a text in UTF-8, and is replayed for each program. A source is taken as it is, and a file
object gets a source that reads it; all programs share such a source. A source reads the bytes below a text wrapper and
does not keep the wrapper: if nobody else does, the wrapper goes and closes what is below it.
-/
import Brainfuck.Device
import Brainfuck.Session

namespace Brainfuck

/-- a file object that is open for reading, or was -/
inductive Handle where
  | bytes (rest : List UInt8)
  /-- a text with no bytes below it -/
  | text (rest : List Char)
  /-- a text wrapper over bytes; `held` says whether anybody but its reader keeps it -/
  | wrapper (rest : List UInt8) (held : Bool)
  | closed
deriving DecidableEq, Repr

/-- the source that reads a file object -/
def Handle.source : Handle → Source
  | bytes rest => .stream rest
  | text rest => .textStream rest []
  | wrapper rest held => if held then .stream rest else .wrapped rest
  | closed => .closed

/-- what a caller hands over as input -/
inductive Origin where
  | bytes (data : List UInt8)
  | text (data : String)
  /-- a source that is there already -/
  | ready (s : Source)
  | handle (h : Handle)
deriving DecidableEq, Repr

namespace Origin

def source : Origin → Source
  | bytes data => .buffer data
  | text data => .buffer (Utf8.encode data.toList)
  | ready s => s
  | handle h => h.source

/-- only data is replayed -/
def feed (o : Origin) : Feed Source :=
  match o with
  | bytes _ | text _ => .replayed o.source
  | ready _ | handle _ => .shared o.source

@[simp] theorem source_feed (o : Origin) : o.feed.source = o.source := by cases o <;> rfl

end Origin

end Brainfuck
