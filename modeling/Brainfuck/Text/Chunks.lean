/-
Text that comes in chunks of bytes.

A `Decoder` reads UTF-8 with universal line ends, one chunk at a time. The bytes of a character that a chunk cuts off
wait for the next chunk, and so does a carriage return at its end, which a line feed may follow. A chunk that is no
UTF-8 gives no character at all, and its flaw is placed counting from the bytes that waited for it: `lines` therefore
loses the line that such a chunk ends, and keeps those that end before it.
-/
import Brainfuck.Text.Lines
import Brainfuck.Text.Utf8

namespace Brainfuck

/-- what the chunks so far leave for the next one -/
structure Decoder where
  /-- the bytes of a character that is cut off -/
  unfinished : List UInt8 := []
  /-- a carriage return came last -/
  heldReturn : Bool := false
deriving DecidableEq, Repr

namespace Decoder

/-- the characters of a chunk, and the decoder for the next one; an empty chunk ends the text -/
def feed (d : Decoder) (chunk : List UInt8) : Except Utf8.Malformed (List Char × Decoder) := do
  let isLast := chunk.isEmpty
  let (chars, unfinished) ← Utf8.decodeFrom isLast 0 (d.unfinished ++ chunk)
  if isLast || !chars.isEmpty then
    let chars := if d.heldReturn then '\r' :: chars else chars
    if !isLast && chars.getLast? = some '\r' then return (universalLines chars.dropLast, ⟨unfinished, true⟩)
    else return (universalLines chars, ⟨unfinished, false⟩)
  else return ([], ⟨unfinished, d.heldReturn⟩)

/-- how many bytes a chunk has -/
def chunkSize : Nat := 8192

/-- the characters of the bytes before the first chunk that is no text, and what is wrong with that chunk -/
def drain (d : Decoder) (bytes : List UInt8) : List Char × Option Utf8.Malformed :=
  match d.feed (bytes.take chunkSize) with
  | .error e => ([], some e)
  | .ok (chars, next) =>
    if bytes.isEmpty then (chars, none)
    else
      let (more, flaw) := next.drain (bytes.drop chunkSize)
      (chars ++ more, flaw)
termination_by bytes.length
decreasing_by
  have : bytes ≠ [] := by simpa using ‹¬bytes.isEmpty = true›
  have := List.length_pos_iff.2 this
  simp only [List.length_drop, chunkSize]
  omega

end Decoder

/-- the lines of a text in bytes, up to the first chunk that is no text, and what is wrong with that chunk -/
def linesOfBytes (bytes : List UInt8) : List (List Char) × Option Utf8.Malformed :=
  match Decoder.drain {} bytes with
  | (chars, none) => (lines chars, none)
  | (chars, some flaw) => (lines (chars.take (endOfLines chars)), some flaw)
where
  /-- the place behind the last line feed -/
  endOfLines (chars : List Char) : Nat := chars.length - (chars.reverse.takeWhile (· != '\n')).length

end Brainfuck
