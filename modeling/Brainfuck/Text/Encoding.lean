/-
The bytes of a text.

A character has its UTF-8 bytes. A surrogate has none, unless it is an escape for a byte: a text that was read from
bytes holds one for each byte that is no UTF-8. `Text.encode` refuses every surrogate, as data for a program has to be
characters; `Text.encodeName` writes the escapes back as the bytes that they stand for, as the name of a file may hold
any.
-/
import Brainfuck.Text.Basic
import Brainfuck.Text.Utf8

namespace Brainfuck

/-- code points that have no bytes: where they stand, how many there are, and the first of them -/
structure Unencodable where
  position : Nat
  count : Nat
  first : Fin 2048
deriving DecidableEq, Repr

namespace CodePoint

def isSurrogate : CodePoint → Bool
  | char _ => false
  | surrogate _ => true

/-- a surrogate by its number -/
def surrogateText (index : Fin 2048) : String := "\\u" ++ Utf8.hex 4 (surrogate index).toNat

/-- how many bytes a code point of a file's name has -/
def nameSize : CodePoint → Nat
  | char c => c.utf8Size
  | surrogate _ => 1

/-- the byte that a surrogate stands for, if it is an escape: one of the upper half of all bytes -/
def escapedByte? (index : Fin 2048) : Option UInt8 :=
  let n := (surrogate index).toNat
  if 0xDC80 ≤ n ∧ n ≤ 0xDCFF then some (UInt8.ofNat (n - 0xDC00)) else none

end CodePoint

def Unencodable.message (e : Unencodable) : String :=
  if e.count = 1 then
    s!"'utf-8' codec can't encode character '{CodePoint.surrogateText e.first}' in position {e.position}: " ++
      "surrogates not allowed"
  else
    s!"'utf-8' codec can't encode characters in position {e.position}-{e.position + e.count - 1}: " ++
      "surrogates not allowed"

namespace Text

/-- the bytes of a text that stands at a position of the whole; a surrogate that has no byte is refused together with
those that follow it -/
def encodeFrom (byte? : Fin 2048 → Option UInt8) (position : Nat) : Text → Except Unencodable (List UInt8)
  | [] => .ok []
  | .char c :: rest => (encodeFrom byte? (position + 1) rest).map (Utf8.encodeChar c ++ ·)
  | .surrogate i :: rest =>
    match byte? i with
    | some b => (encodeFrom byte? (position + 1) rest).map (b :: ·)
    | none => .error ⟨position, 1 + (rest.takeWhile CodePoint.isSurrogate).length, i⟩

/-- the bytes of a text that is data -/
def encode (t : Text) : Except Unencodable (List UInt8) := t.encodeFrom (fun _ => none) 0

/-- the bytes of a text that names a file -/
def encodeName (t : Text) : Except Unencodable (List UInt8) := t.encodeFrom CodePoint.escapedByte? 0

/-- how many bytes a name of a file has -/
def nameSize (t : Text) : Nat := t.foldl (fun n c => n + c.nameSize) 0

/-- the text as a message shows it: a lone surrogate by its number -/
def printed (t : Text) : String :=
  String.join (t.map fun
    | .char c => c.toString
    | .surrogate i => CodePoint.surrogateText i)

theorem encodeFrom_ofChars (byte? : Fin 2048 → Option UInt8) (n : Nat) (cs : List Char) :
    (ofChars cs).encodeFrom byte? n = .ok (Utf8.encode cs) := by
  induction cs generalizing n with
  | nil => rfl
  | cons c cs ih =>
    have ih : Text.encodeFrom byte? (n + 1) (cs.map .char) = .ok (Utf8.encode cs) := ih (n + 1)
    simp only [ofChars, List.map_cons, encodeFrom, ih, Except.map, Utf8.encode, List.flatMap_cons]

/-- a string has its UTF-8 bytes -/
theorem encode_ofString (s : String) : (ofString s).encode = .ok (Utf8.encode s.toList) := encodeFrom_ofChars _ 0 _

example : encode [.char 'a', .ofNat 0xDCFF] = .error ⟨1, 1, 0x4FF⟩ := rfl
example : encodeName [.char 'a', .ofNat 0xDCFF] = .ok [97, 255] := rfl

end Text

end Brainfuck
