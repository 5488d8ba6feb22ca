/-
Reading a YAML file.

`Yaml.read` takes the bytes of a file in pieces of 4096 characters. The first two pieces are looked at before anything
else: they must be text, of characters that YAML allows. What is wrong with a later piece is a mistake behind the part
that can be read, and comes to light when that part is used up. A file without a document gives null. The stack is taken
to suffice for the nesting of a document.
-/
import Brainfuck.Text.Pieces
import Brainfuck.Yaml.Tree

namespace Brainfuck.Yaml

/-- the characters of a piece -/
def pieceSize : Nat := 4096

/-- the part of a file that can be read, and the mistake behind it -/
def readable (bytes : List UInt8) : Except Error (List Char × Option Error) :=
  let (texts, flaw) := pieces pieceSize bytes
  let good := texts.takeWhile fun piece => piece.all isAllowed
  let mistake := if good.length < texts.length then some .malformed else flaw.map .encoding
  match texts, flaw with
  | [], some e | [_], some e => .error (.encoding e)
  | _, _ => if good.length < min 2 texts.length then .error .malformed else .ok (good.flatten, mistake)

/-- the document that a file spells -/
def read (bytes : List UInt8) : Except Error Tree := do
  let (cs, flaw) ← readable bytes
  let (tokens, mistake) := tokens cs flaw
  match ← Document.ofTokens tokens mistake with
  | none => return .null
  | some d => return ⟨← d.assemble, d.root⟩

end Brainfuck.Yaml
