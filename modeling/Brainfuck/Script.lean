/-
Program texts and places in them.

A script is a text, or bytes that are read one character for each byte, so that a place in it is a byte offset. A
program file is a text in UTF-8, or one character for each byte if it is not UTF-8.
`Place.of` turns an offset into a line and a column, both counted from one.
-/
import Brainfuck.Text.Utf8

namespace Brainfuck

/-- the text of a program -/
inductive Script where
  | text (s : String)
  | bytes (bs : List UInt8)

/-- the characters of the script, one for each offset -/
def Script.chars : Script → List Char
  | .text s => s.toList
  | .bytes bs => Utf8.oneCharPerByte bs

/-- the script in a file -/
def Script.ofFile (bytes : List UInt8) : Script :=
  match Utf8.decode bytes with
  | .ok cs => .text (String.ofList cs)
  | .error _ => .text (String.ofList (Utf8.oneCharPerByte bytes))

/-- an offset, with the line and the column where it stands -/
structure Place where
  position : Nat
  line : Nat
  column : Nat
deriving DecidableEq, Repr

/-- the place of an offset in a text -/
def Place.of (cs : List Char) (position : Nat) : Place :=
  let before := cs.take position
  ⟨position, before.count '\n' + 1, (before.reverse.takeWhile (· ≠ '\n')).length + 1⟩

end Brainfuck
