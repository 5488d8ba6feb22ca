/-
A place in a YAML text, and the classes of characters that matter there.

A cursor knows what is left of the text, and the index, line and column where it stands. Past the end it sees the
character NUL, which no YAML text holds. Line ends have been made uniform before: a line ends at a line feed, a
next-line character or one of the two Unicode separators.
-/

namespace Brainfuck.Yaml

/-- a character that YAML allows in a text -/
def isAllowed (c : Char) : Bool :=
  let n := c.toNat
  n == 0x09 || n == 0x0A || n == 0x0D || (0x20 ≤ n && n ≤ 0x7E) || n == 0x85 || (0xA0 ≤ n && n ≤ 0xD7FF) ||
    (0xE000 ≤ n && n ≤ 0xFFFD) || 0x10000 ≤ n

/-- the mark of byte order, which may stand at the beginning -/
def byteOrderMark : Char := '\uFEFF'

/-- what a cursor sees at the end of the text -/
def endMark : Char := '\x00'

/-- the end of a line -/
def isBreak (c : Char) : Bool := c == '\n' || c == '\u0085' || c == '\u2028' || c == '\u2029'

/-- the end of a line or of the text -/
def endsLine (c : Char) : Bool := isBreak c || c == endMark

/-- a space, or the end of a line or of the text -/
def endsWord (c : Char) : Bool := c == ' ' || endsLine c

/-- the same with the tab -/
def isGap (c : Char) : Bool := c == '\t' || endsWord c

/-- a character of a name -/
def isNameChar (c : Char) : Bool := c.isAlphanum || c == '-' || c == '_'

/-- a place in a text -/
structure Cursor where
  rest : List Char
  index : Nat
  line : Nat
  column : Nat
deriving DecidableEq, Repr

namespace Cursor

def start (cs : List Char) : Cursor := ⟨cs, 0, 0, 0⟩

/-- the character at the cursor -/
def peek (c : Cursor) : Char := c.rest.headD endMark

/-- the character so many places further on -/
def peekAt (c : Cursor) (n : Nat) : Char := c.rest.getD n endMark

def atEnd (c : Cursor) : Bool := c.rest.isEmpty

/-- one character further -/
def next (c : Cursor) : Cursor :=
  match c.rest with
  | [] => c
  | ch :: rest =>
    if isBreak ch then ⟨rest, c.index + 1, c.line + 1, 0⟩
    else ⟨rest, c.index + 1, c.line, if ch = byteOrderMark then c.column else c.column + 1⟩

/-- so many characters further -/
def advance : Nat → Cursor → Cursor
  | 0, c => c
  | n + 1, c => advance n c.next

/-- the characters up to the first that does not satisfy `p`, and the cursor there -/
def spanWhile (p : Char → Bool) (c : Cursor) : List Char × Cursor :=
  let taken := c.rest.takeWhile p
  (taken, c.advance taken.length)

/-- the cursor at the first character that does not satisfy `p` -/
def skipWhile (p : Char → Bool) (c : Cursor) : Cursor := (c.spanWhile p).2

/-- the line end at the cursor, as it counts in a value; nothing if there is none -/
def lineBreak (c : Cursor) : List Char × Cursor :=
  if isBreak c.peek then ([if c.peek = '\u0085' then '\n' else c.peek], c.next) else ([], c)

/-- a comment, if one starts here -/
def skipComment (c : Cursor) : Cursor := if c.peek = '#' then c.skipWhile fun ch => !endsLine ch else c

/-- three characters of one kind that stand alone at the cursor -/
def marks (c : Cursor) (ch : Char) : Bool := c.rest.take 3 == [ch, ch, ch] && isGap (c.peekAt 3)

/-- the mark of the start or the end of a document -/
def atDocumentMark (c : Cursor) : Bool := c.marks '-' || c.marks '.'

end Cursor

end Brainfuck.Yaml
