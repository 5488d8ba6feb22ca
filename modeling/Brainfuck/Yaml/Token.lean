/-
The tokens of a YAML text.

`tokens` cuts a text into tokens, among them those that no character spells: the start of a block collection where the
indentation grows, its end where it shrinks, and the key mark before a key that only the colon behind it gives away.
Such a key is remembered as a candidate, one for each level of brackets, while it is on one line and no longer than
1024 characters; the marks are put in front of it when the colon comes.
-/
import Brainfuck.Yaml.Scalar
import Brainfuck.Yaml.Tag

namespace Brainfuck.Yaml

/-- a token -/
inductive Token where
  | streamEnd
  | directive (d : Directive)
  | documentStart
  | documentEnd
  | blockSequenceStart
  | blockMappingStart
  | blockEnd
  | flowSequenceStart
  | flowSequenceEnd
  | flowMappingStart
  | flowMappingEnd
  | blockEntry
  | flowEntry
  | key
  | value
  | anchor (name : List Char)
  | alias (name : List Char)
  | tag (t : WrittenTag)
  | scalar (text : Text) (plain : Bool)
deriving DecidableEq, Repr

/-- a token that may turn out to start a key -/
structure Candidate where
  /-- how many tokens stand before it -/
  position : Nat
  /-- nothing but a key can start here -/
  required : Bool
  cursor : Cursor

/-- how far a text has been cut -/
structure Lexer where
  cursor : Cursor
  tokens : List Token
  /-- a candidate or none for each level of brackets, the innermost first -/
  candidates : List (Option Candidate)
  /-- the columns of the block collections, the innermost first -/
  columns : List Nat
  /-- a key may start here -/
  keyAllowed : Bool

namespace Lexer

/-- the longest key that needs no mark -/
def keyLimit : Nat := 1024

def start (cs : List Char) : Lexer := ⟨.start cs, [], [none], [], true⟩

def inFlow (x : Lexer) : Bool := 1 < x.candidates.length

def candidate (x : Lexer) : Option Candidate := x.candidates.headD none

def setCandidate (x : Lexer) (k : Option Candidate) : Lexer := { x with candidates := k :: x.candidates.tail }

def emit (x : Lexer) (t : Token) : Lexer := { x with tokens := x.tokens ++ [t] }

/-- emit a token of so many characters -/
def emitOver (x : Lexer) (t : Token) (width : Nat) : Lexer := { x.emit t with cursor := x.cursor.advance width }

/-- the column that lines of the innermost block must exceed, plus one -/
def lineColumn (x : Lexer) : Nat :=
  match x.columns with
  | [] => 0
  | column :: _ => column + 1

/-- forget the candidate of this level; one that must be a key is missed -/
def dropCandidate (x : Lexer) : Except Error Lexer :=
  if x.candidate.any (·.required) then .error .malformed else .ok (x.setCandidate none)

/-- a candidate that has become too long or is on another line -/
def isStale (x : Lexer) (k : Candidate) : Bool :=
  k.cursor.line != x.cursor.line || keyLimit < x.cursor.index - k.cursor.index

/-- forget the candidates that are stale -/
def dropStale (x : Lexer) : Except Error Lexer :=
  if x.candidates.any fun k => k.any fun k => x.isStale k && k.required then .error .malformed
  else .ok { x with candidates := x.candidates.map fun k => k.filter fun k => !x.isStale k }

/-- the token to come may start a key -/
def saveCandidate (x : Lexer) : Except Error Lexer :=
  if x.keyAllowed then do
    let y ← x.dropCandidate
    let required := !x.inFlow && x.columns.head? = some x.cursor.column
    return y.setCandidate (some ⟨x.tokens.length, required, x.cursor⟩)
  else .ok x

/-- end the blocks that are indented further than a column -/
def unwindTo (column : Nat) : List Nat → Lexer → Lexer
  | [], x => { x with columns := [] }
  | c :: cs, x => if column < c then unwindTo column cs (x.emit .blockEnd) else { x with columns := c :: cs }

/-- end the blocks that are indented further than the cursor -/
def unwind (x : Lexer) : Lexer := if x.inFlow then x else unwindTo x.cursor.column x.columns x

/-- end all blocks -/
def unwindAll (x : Lexer) : Lexer :=
  if x.inFlow then x else { x with tokens := x.tokens ++ x.columns.map fun _ => .blockEnd, columns := [] }

/-- begin a block at a column, if it is indented further -/
def indent (x : Lexer) (t : Token) (column : Nat) : Lexer :=
  if x.columns.all (· < column) then { x.emit t with columns := column :: x.columns } else x

/-- the cursor at the next token, and whether a line ended before it -/
def skipGap : Nat → Bool → Cursor → Bool × Cursor
  | 0, broke, c => (broke, c)
  | fuel + 1, broke, c =>
    let c := (c.skipWhile (· == ' ')).skipComment
    if isBreak c.peek then skipGap fuel true c.lineBreak.2 else (broke, c)

def toNextToken (x : Lexer) : Lexer :=
  let c := if x.cursor.index = 0 && x.cursor.peek = byteOrderMark then x.cursor.next else x.cursor
  let (broke, c) := skipGap (c.rest.length + 1) false c
  { x with cursor := c, keyAllowed := x.keyAllowed || (broke && !x.inFlow) }

/-! ## One token -/

def documentMark (x : Lexer) (t : Token) : Except Error Lexer := do
  let x ← x.unwindAll.dropCandidate
  return { x.emitOver t 3 with keyAllowed := false }

def directive (x : Lexer) : Except Error Lexer := do
  let x ← x.unwindAll.dropCandidate
  let (d, c) ← Written.directive x.cursor
  return { x.emit (.directive d) with cursor := c, keyAllowed := false }

def streamEnd (x : Lexer) : Except Error Lexer := do
  let x ← x.unwindAll.dropCandidate
  return x.emit .streamEnd

def flowStart (x : Lexer) (t : Token) : Except Error Lexer := do
  let x ← x.saveCandidate
  return { x.emitOver t 1 with candidates := none :: x.candidates, keyAllowed := true }

def flowEnd (x : Lexer) (t : Token) : Except Error Lexer := do
  if !x.inFlow then throw .malformed
  let x ← x.dropCandidate
  return { x.emitOver t 1 with candidates := x.candidates.tail, keyAllowed := false }

def flowEntry (x : Lexer) : Except Error Lexer := do
  let x ← x.dropCandidate
  return { x.emitOver .flowEntry 1 with keyAllowed := true }

/-- begin a block where a key or an entry is allowed -/
def blockStart (x : Lexer) (t : Token) : Except Error Lexer :=
  if x.inFlow then .ok x
  else if x.keyAllowed then .ok (x.indent t x.cursor.column)
  else .error .malformed

def blockEntry (x : Lexer) : Except Error Lexer := do
  let x ← (← x.blockStart .blockSequenceStart).dropCandidate
  return { x.emitOver .blockEntry 1 with keyAllowed := true }

def key (x : Lexer) : Except Error Lexer := do
  let x ← (← x.blockStart .blockMappingStart).dropCandidate
  return { x.emitOver .key 1 with keyAllowed := !x.inFlow }

/-- the key mark in front of a candidate, with the start of a block if it is indented further -/
def markKey (x : Lexer) (k : Candidate) : Lexer :=
  let opens := !x.inFlow && x.columns.all (· < k.cursor.column)
  let marks := if opens then [.blockMappingStart, .key] else [Token.key]
  { x with
    tokens := x.tokens.take k.position ++ marks ++ x.tokens.drop k.position
    columns := if opens then k.cursor.column :: x.columns else x.columns }

def value (x : Lexer) : Except Error Lexer := do
  match x.candidate with
  | some k => return { (x.markKey k).setCandidate none |>.emitOver .value 1 with keyAllowed := false }
  | none =>
    let x ← x.blockStart .blockMappingStart
    return { x.emitOver .value 1 with keyAllowed := !x.inFlow }

/-- a name behind the mark of an anchor or an alias -/
def name (x : Lexer) (t : List Char → Token) : Except Error Lexer := do
  let x ← x.saveCandidate
  let (name, c) := x.cursor.next.spanWhile isNameChar
  if name.isEmpty || !(isGap c.peek || "?:,]\x7d%@`".toList.contains c.peek) then throw .malformed
  return { x.emit (t name) with cursor := c, keyAllowed := false }

def tag (x : Lexer) : Except Error Lexer := do
  let x ← x.saveCandidate
  let (t, c) ← Written.tag x.cursor
  return { x.emit (.tag t) with cursor := c, keyAllowed := false }

def block (x : Lexer) (fold : Bool) : Except Error Lexer := do
  let x ← x.dropCandidate
  let (text, c) ← Scalar.block fold x.lineColumn x.cursor.next
  return { x.emit (.scalar (.ofChars text) false) with cursor := c, keyAllowed := true }

def quoted (x : Lexer) (double : Bool) : Except Error Lexer := do
  let x ← x.saveCandidate
  let (text, c) ← Scalar.quoted double x.cursor.next
  return { x.emit (.scalar text false) with cursor := c, keyAllowed := false }

def plain (x : Lexer) : Except Error Lexer := do
  let x ← x.saveCandidate
  let (text, c, brokeLine) := Scalar.plain x.inFlow x.lineColumn x.cursor
  return { x.emit (.scalar (.ofChars text) true) with cursor := c, keyAllowed := brokeLine }

/-- a plain scalar can start at the cursor -/
def startsPlain (x : Lexer) : Bool :=
  let ch := x.cursor.peek
  !(isGap ch || "-?:,[]\x7b\x7d#&*!|>'\"%@`".toList.contains ch) ||
    (!isGap (x.cursor.peekAt 1) && (ch == '-' || (!x.inFlow && (ch == '?' || ch == ':'))))

/-- cut off the token at the cursor -/
def scanToken (x : Lexer) : Except Error Lexer :=
  let ch := x.cursor.peek
  let alone := isGap (x.cursor.peekAt 1)
  let atMargin := x.cursor.column = 0
  if x.cursor.atEnd then x.streamEnd
  else if ch = '%' && atMargin then x.directive
  else if atMargin && x.cursor.marks '-' then x.documentMark .documentStart
  else if atMargin && x.cursor.marks '.' then x.documentMark .documentEnd
  else if ch = '[' then x.flowStart .flowSequenceStart
  else if ch = '\x7b' then x.flowStart .flowMappingStart
  else if ch = ']' then x.flowEnd .flowSequenceEnd
  else if ch = '\x7d' then x.flowEnd .flowMappingEnd
  else if ch = ',' then x.flowEntry
  else if ch = '-' && alone then x.blockEntry
  else if ch = '?' && (x.inFlow || alone) then x.key
  else if ch = ':' && (x.inFlow || alone) then x.value
  else if ch = '*' then x.name .alias
  else if ch = '&' then x.name .anchor
  else if ch = '!' then x.tag
  else if ch = '|' && !x.inFlow then x.block false
  else if ch = '>' && !x.inFlow then x.block true
  else if ch = '\'' then x.quoted false
  else if ch = '"' then x.quoted true
  else if x.startsPlain then x.plain
  else .error .malformed

/-- go to the next token and cut it off -/
def step (x : Lexer) : Except Error Lexer := do
  let x ← x.toNextToken.dropStale
  x.unwind.scanToken

/-- the tokens that cannot become a key any more; the others are not given away -/
def settled (x : Lexer) : List Token :=
  let live := x.candidates.filterMap fun k => k.filter fun k => !x.isStale k
  x.tokens.take (live.foldl (fun n k => min n k.position) x.tokens.length)

/-- cut the rest of the text, behind which there may be a mistake; on a mistake the tokens before it are kept -/
def run (flaw : Option Error) : Nat → Lexer → List Token × Option Error
  | 0, x => (x.settled, some .malformed)
  | fuel + 1, x =>
    match x.step with
    | .error e => (x.settled, if e = .unclosed then flaw.or (some e) else some e)
    | .ok y =>
      if y.cursor.atEnd && flaw.isSome then (x.settled, flaw)
      else if y.tokens.getLast? = some .streamEnd then (y.tokens, none)
      else run flaw fuel y

end Lexer

/-- the tokens of a text with a mistake behind it, if there is one, up to the first mistake -/
def tokens (cs : List Char) (flaw : Option Error) : List Token × Option Error :=
  Lexer.run flaw (cs.length + 2) (.start cs)

end Brainfuck.Yaml
