/-
Scalars: the texts that YAML spells plainly, in quotes, or as a block.

Each reader takes a cursor at the first character (behind the quote, for quoted text) and gives the text with the cursor
after it. A single line end inside a scalar folds to a space, and of several the first is dropped; a literal block keeps
them all.
-/
import Brainfuck.Text.Basic
import Brainfuck.Yaml.Cursor
import Brainfuck.Yaml.Error

namespace Brainfuck.Yaml.Scalar

/-- a line end and the empty lines after it, as they fold -/
def folded (lineBreak breaks : List Char) : List Char :=
  (if lineBreak != ['\n'] then lineBreak else if breaks.isEmpty then [' '] else []) ++ breaks

/-! ## Plain scalars -/

/-- a character that has a meaning of its own between brackets -/
def isFlowMark (c : Char) : Bool := c == ',' || c == '[' || c == ']' || c == '\x7b' || c == '\x7d'

/-- how many characters belong to a plain scalar on this line before the next gap; `flow` is set between brackets -/
def runLength (flow : Bool) : List Char → Nat
  | [] => 0
  | c :: rest =>
    let after := rest.headD endMark
    if isGap c || (c == ':' && (isGap after || (flow && isFlowMark after)))
        || (flow && (c == '?' || isFlowMark c)) then 0
    else runLength flow rest + 1

/-- what follows a run: the text between it and the next run (nothing if there is no next one), the cursor there, and
whether a line ended -/
structure PlainGap where
  text : List Char
  cursor : Cursor
  brokeLine : Bool

/-- the empty lines and the indentation after a line end; `none` at the mark of a document -/
def plainBreaks : Nat → List Char → Cursor → Option (List Char) × Cursor
  | 0, breaks, c => (some breaks, c)
  | fuel + 1, breaks, c =>
    if c.peek = ' ' then plainBreaks fuel breaks c.next
    else if isBreak c.peek then
      let (lineBreak, c) := c.lineBreak
      if c.atDocumentMark then (none, c) else plainBreaks fuel (breaks ++ lineBreak) c
    else (some breaks, c)

def plainGap (c : Cursor) : PlainGap :=
  let (spaces, c) := c.spanWhile (· == ' ')
  if isBreak c.peek then
    let (lineBreak, c) := c.lineBreak
    if c.atDocumentMark then ⟨[], c, true⟩
    else
      match plainBreaks c.rest.length [] c with
      | (none, c) => ⟨[], c, true⟩
      | (some breaks, c) => ⟨folded lineBreak breaks, c, true⟩
  else ⟨spaces, c, false⟩

/-- the runs of a plain scalar from here on, after the text read so far and the gap that followed it; lines must be
indented to a column -/
def plainRuns (flow : Bool) (column : Nat) : Nat → List Char → PlainGap → List Char × Cursor × Bool
  | 0, done, gap => (done, gap.cursor, gap.brokeLine)
  | fuel + 1, done, gap =>
    let c := gap.cursor
    let length := runLength flow c.rest
    if c.peek = '#' || length = 0 then (done, c, gap.brokeLine)
    else
      let done := done ++ gap.text ++ c.rest.take length
      let gap := plainGap (c.advance length)
      if gap.text.isEmpty || gap.cursor.peek = '#' || (!flow && gap.cursor.column < column) then
        (done, gap.cursor, gap.brokeLine)
      else plainRuns flow column fuel done gap

/-- a plain scalar, the cursor after it, and whether a line ended before that -/
def plain (flow : Bool) (column : Nat) (c : Cursor) : List Char × Cursor × Bool :=
  plainRuns flow column (c.rest.length + 1) [] ⟨[], c, false⟩

/-! ## Quoted scalars -/

/-- the empty lines and the indentation after a line end in quotes -/
def quotedBreaks : Nat → List Char → Cursor → Except Error (List Char × Cursor)
  | 0, breaks, c => .ok (breaks, c)
  | fuel + 1, breaks, c =>
    if c.atDocumentMark then .error .malformed
    else
      let c := c.skipWhile fun ch => ch == ' ' || ch == '\t'
      if isBreak c.peek then
        let (lineBreak, c) := c.lineBreak
        quotedBreaks fuel (breaks ++ lineBreak) c
      else .ok (breaks, c)

/-- a gap in quotes: blanks within a line are kept, those around a line end are not -/
def quotedGap (c : Cursor) : Except Error (List Char × Cursor) := do
  let (blanks, c) := c.spanWhile fun ch => ch == ' ' || ch == '\t'
  if c.atEnd then throw .unclosed
  else if isBreak c.peek then
    let (lineBreak, c) := c.lineBreak
    let (breaks, c) ← quotedBreaks (c.rest.length + 1) [] c
    return (folded lineBreak breaks, c)
  else return (blanks, c)

/-- the character of an escape with one letter -/
def escape? : Char → Option Char
  | '0' => some '\x00'
  | 'a' => some '\x07'
  | 'b' => some '\x08'
  | 't' | '\t' => some '\t'
  | 'n' => some '\n'
  | 'v' => some '\x0b'
  | 'f' => some '\x0c'
  | 'r' => some '\r'
  | 'e' => some '\x1b'
  | ' ' => some ' '
  | '"' => some '"'
  | '\\' => some '\\'
  | '/' => some '/'
  | 'N' => some '\u0085'
  | '_' => some '\u00a0'
  | 'L' => some '\u2028'
  | 'P' => some '\u2029'
  | _ => none

/-- how many digits an escape by number has -/
def escapeWidth? : Char → Option Nat
  | 'x' => some 2
  | 'u' => some 4
  | 'U' => some 8
  | _ => none

/-- the code point of so many hexadecimal digits -/
def numbered (width : Nat) (c : Cursor) : Except Error (CodePoint × Cursor) :=
  let ds := (c.rest.take width).filterMap (Numeral.digitIn? 16)
  if ds.length < width || !(c.rest.take width).all (fun ch => ch.toNat < 128) then .error .malformed
  else
    let n := Numeral.value 16 ds
    if 0x110000 ≤ n then .error (.codePoint n) else .ok (.ofNat n, c.advance width)

/-- the text of an escape, from the backslash on -/
def escaped (c : Cursor) : Except Error (Text × Cursor) := do
  let c := c.next
  match escape? c.peek, escapeWidth? c.peek with
  | some ch, _ => return ([.char ch], c.next)
  | none, some width =>
    let (point, c) ← numbered width c.next
    return ([point], c)
  | none, none =>
    if isBreak c.peek then
      let (_, c) := c.lineBreak
      let (breaks, c) ← quotedBreaks (c.rest.length + 1) [] c
      return (.ofChars breaks, c)
    else throw .malformed

/-- the rest of a quoted scalar, after the text read so far; `double` tells the two quotes apart -/
def quotedFrom (double : Bool) : Nat → Text → Cursor → Except Error (Text × Cursor)
  | 0, _, _ => .error .malformed
  | fuel + 1, done, c =>
    if c.atEnd then .error .unclosed
    else if isGap c.peek then do
      let (gap, c) ← quotedGap c
      quotedFrom double fuel (done ++ .ofChars gap) c
    else if double && c.peek = '"' then .ok (done, c.next)
    else if !double && c.peek = '\'' then
      if c.peekAt 1 = '\'' then quotedFrom double fuel (done ++ [.char '\'']) (c.advance 2) else .ok (done, c.next)
    else if double && c.peek = '\\' then do
      let (text, c) ← escaped c
      quotedFrom double fuel (done ++ text) c
    else quotedFrom double fuel (done ++ [.char c.peek]) c.next

/-- a quoted scalar, from behind its quote on -/
def quoted (double : Bool) (c : Cursor) : Except Error (Text × Cursor) :=
  quotedFrom double (c.rest.length + 1) [] c

/-! ## Block scalars -/

/-- what becomes of the line ends at the end of a block -/
inductive Chomping where
  | strip
  | clip
  | keep
deriving DecidableEq, Repr

def Chomping.ofChar? : Char → Option Chomping
  | '+' => some .keep
  | '-' => some .strip
  | _ => none

/-- an indentation given as a digit -/
def increment? (c : Cursor) : Except Error (Option Nat × Cursor) :=
  if c.peek.isDigit then
    if c.peek = '0' then .error .malformed else .ok (some (c.peek.toNat - '0'.toNat), c.next)
  else .ok (none, c)

/-- a chomping mark -/
def chomping? (c : Cursor) : Option Chomping × Cursor :=
  match Chomping.ofChar? c.peek with
  | some m => (some m, c.next)
  | none => (none, c)

/-- the marks after the start of a block, in either order, and the rest of their line -/
def header (c : Cursor) : Except Error (Chomping × Option Nat × Cursor) := do
  let (before, c) := chomping? c
  let (increment, c) ← increment? c
  let (after, c) := if before.isNone && increment.isSome then chomping? c else (none, c)
  if !endsWord c.peek then throw .malformed
  let c := (c.skipWhile (· == ' ')).skipComment
  if !endsLine c.peek then throw .malformed
  return ((before.or after).getD .clip, increment, c.lineBreak.2)

/-- the empty lines at the head of a block, and the column of the furthest space among them -/
def leading : Nat → List Char → Nat → Cursor → List Char × Nat × Cursor
  | 0, breaks, column, c => (breaks, column, c)
  | fuel + 1, breaks, column, c =>
    if c.peek = ' ' then leading fuel breaks (max column c.next.column) c.next
    else if isBreak c.peek then leading fuel (breaks ++ c.lineBreak.1) column c.lineBreak.2
    else (breaks, column, c)

/-- the spaces up to a column -/
def skipIndent : Nat → Nat → Cursor → Cursor
  | 0, _, c => c
  | fuel + 1, indent, c => if c.column < indent && c.peek = ' ' then skipIndent fuel indent c.next else c

/-- the empty lines before the next line of a block -/
def blockBreaks : Nat → Nat → List Char → Cursor → List Char × Cursor
  | 0, _, breaks, c => (breaks, c)
  | fuel + 1, indent, breaks, c =>
    let c := skipIndent indent indent c
    if isBreak c.peek then blockBreaks fuel indent (breaks ++ c.lineBreak.1) c.lineBreak.2 else (breaks, c)

/-- the lines of a block: the text so far, with the empty lines before the next one -/
def blockLines (fold : Bool) (chomping : Chomping) (indent : Nat) : Nat → List Char → List Char → Cursor →
    List Char × Cursor
  | 0, done, _, c => (done, c)
  | fuel + 1, done, breaks, c =>
    if !(c.column = indent && !c.atEnd) then
      (if chomping = .keep then done ++ breaks else done, c)
    else
      let starts (c : Cursor) := !(c.peek = ' ' || c.peek = '\t')
      let (line, after) := c.spanWhile fun ch => !endsLine ch
      let done := done ++ breaks ++ line
      let (lineBreak, c') := after.lineBreak
      let (breaks, c') := blockBreaks (c'.rest.length + 1) indent [] c'
      if c'.column = indent && !c'.atEnd then
        let joint :=
          if fold && lineBreak = ['\n'] && starts c && starts c' then if breaks.isEmpty then [' '] else []
          else lineBreak
        blockLines fold chomping indent fuel (done ++ joint) breaks c'
      else
        match chomping with
        | .strip => (done, c')
        | .clip => (done ++ lineBreak, c')
        | .keep => (done ++ lineBreak ++ breaks, c')

/-- a block scalar, from behind its mark on; its lines are indented at least to a column -/
def block (fold : Bool) (column : Nat) (c : Cursor) : Except Error (List Char × Cursor) := do
  let (chomping, increment, c) ← header c
  let least := max 1 column
  match increment with
  | none =>
    let (breaks, furthest, c) := leading (c.rest.length + 1) [] 0 c
    return blockLines fold chomping (max least furthest) (c.rest.length + 1) [] breaks c
  | some n =>
    let indent := least + n - 1
    let (breaks, c) := blockBreaks (c.rest.length + 1) indent [] c
    return blockLines fold chomping indent (c.rest.length + 1) [] breaks c

end Brainfuck.Yaml.Scalar
