/-
What a command line asks for.

`Arguments.read` goes through the words once. The first plain word is the program, other plain words are not
recognized, and of a flag that comes twice the last one counts. The first mistake ends the reading, and so does a call
for help; words that were not recognized are reported at the end, all together.

The reader of command lines came in two releases, which differ in what may be attached to a flag (`Release`).
-/
import Brainfuck.CommandLine.Word

namespace Brainfuck.CommandLine

/-- a release of the reader -/
inductive Release where
  /-- as in 3.11.2: a separator that is attached to a flag is dropped, so the flag has no operand; a character that is
  no flag, attached to a flag without operand, is a mistake -/
  | early
  /-- as in 3.11.10: such a separator is an operand as any other; such a character begins a word that is not recognized;
  and behind short flags in one word an equals sign may lead to the operand of the last -/
  | late
deriving DecidableEq, Repr

/-- the release drops this operand -/
def Release.drops (release : Release) (t : Text) : Bool := release = .early && t = Word.separatorText

/-- what came with a flag: a word or, in the early release, nothing if the text attached to it is only the separator -/
inductive Operand (α : Type) where
  | given (a : α)
  | lost
deriving DecidableEq, Repr

namespace Operand

variable {α : Type}

def toOption : Operand α → Option α
  | given a => some a
  | lost => none

end Operand

structure Arguments where
  /-- the program text -/
  code : Option Text := none
  file : Option Text := none
  input : Option (Operand Text) := none
  output : Option Text := none
  config : Option Text := none
  tapeLength : Option (Operand Int) := none
  fixedTape : Bool := false
  noWrap : Bool := false
  maxSteps : Option (Operand Int) := none
  eof : Option EofPolicy := none
  eofValue : Option (Operand Int) := none
  noFlush : Bool := false
  printCells : Bool := false
  time : Bool := false
  debug : Bool := false
  verbose : Bool := false
deriving DecidableEq, Repr

/-- why no arguments are read -/
inductive Refusal where
  | help
  | usage (e : UsageError)
deriving DecidableEq, Repr

namespace Arguments

/-- the operand of a flag that takes a text -/
def textOf (release : Release) (t : Text) : Operand Text := if release.drops t then .lost else .given t

/-- the operand of a flag that takes an integer -/
def intOf (release : Release) (f : Flag) (t : Text) : Except Refusal (Operand Int) :=
  if release.drops t then .ok .lost
  else
    match Numeral.read t.toChars with
    | .ok n => .ok (.given n)
    | .error _ => .error (.usage (.notInteger f t))

/-- the operand of a flag that takes a policy -/
def policyOf (release : Release) (f : Flag) (t : Text) : Except Refusal (Option EofPolicy) :=
  if release.drops t then .ok none
  else
    match EofPolicy.all.find? fun p => Text.ofString p.name = t with
    | some p => .ok (some p)
    | none => .error (.usage (.notPolicy f t))

/-- the arguments with one more flag; `t` is its operand, if it takes one -/
def set (release : Release) (a : Arguments) (f : Flag) (t : Text) : Except Refusal Arguments :=
  match f with
  | .help => .error .help
  | .file => .ok { a with file := (textOf release t).toOption }
  | .input => .ok { a with input := some (textOf release t) }
  | .output => .ok { a with output := (textOf release t).toOption }
  | .config => .ok { a with config := (textOf release t).toOption }
  | .tapeLength => (intOf release f t).map fun n => { a with tapeLength := some n }
  | .fixedTape => .ok { a with fixedTape := true }
  | .noWrap => .ok { a with noWrap := true }
  | .maxSteps => (intOf release f t).map fun n => { a with maxSteps := some n }
  | .eof => (policyOf release f t).map fun p => { a with eof := p }
  | .eofValue => (intOf release f t).map fun n => { a with eofValue := some n }
  | .noFlush => .ok { a with noFlush := true }
  | .printCells => .ok { a with printCells := true }
  | .time => .ok { a with time := true }
  | .debug => .ok { a with debug := true }
  | .verbose => .ok { a with verbose := true }

def setAll (release : Release) (a : Arguments) : List (Flag × Text) → Except Refusal Arguments
  | [] => .ok a
  | (f, t) :: rest => a.set release f t >>= fun a => a.setAll release rest

/-- what a word with flags comes to -/
structure Call where
  /-- the flags, each with its operand -/
  flags : List (Flag × Text)
  /-- what is attached and no flag -/
  unrecognized : List Text := []
  /-- the next word is the operand of the last flag -/
  tookNext : Bool := false

/-- one more flag without operand, before the others of the word -/
def Call.after (f : Flag) (c : Call) : Call := { c with flags := (f, []) :: c.flags }

/-- what is attached to a short flag that is itself attached to one -/
def attachedTo (release : Release) : Text → Option Attachment
  | [] => none
  | p :: rest => if release = .late && p = equalsSign then some ⟨rest, true⟩ else some ⟨p :: rest, false⟩

/-- the flags in one word, with their operands: a short flag without operand may have others attached, and the last may
find its operand in the next word -/
def flagsOf (release : Release) (f : Flag) (short : Bool) (attached : Option Attachment) (next : Option Text) :
    Except UsageError Call :=
  match f.operand, attached with
  | .nothing, none => .ok { flags := [(f, [])] }
  | .nothing, some ⟨[], _⟩ => .error (.unusedOperand f [])
  | .nothing, some ⟨p :: rest, behindEquals⟩ =>
    if !short || (release = .late && (behindEquals || p = hyphen)) then .error (.unusedOperand f (p :: rest))
    else
      match Flag.named? [hyphen, p] with
      | some g => (flagsOf release g true (attachedTo release rest) next).map (Call.after f)
      | none =>
        match release with
        | .early => .error (.unusedOperand f (p :: rest))
        | .late => .ok { flags := [(f, [])], unrecognized := [hyphen :: p :: rest] }
  | _, some a => .ok { flags := [(f, a.text)] }
  | _, none =>
    match next with
    | some t => .ok { flags := [(f, t)], tookNext := true }
    | none => .error (.missingOperand f)
termination_by attached.elim 0 fun a => a.text.length + 1
decreasing_by
  unfold attachedTo
  split
  · simp
  · split <;> simp

/-- the words read so far -/
structure Reading where
  arguments : Arguments := {}
  unrecognized : List Text := []
  /-- the word before was the program -/
  justTaken : Bool := false

/-- a plain word -/
def Reading.plain (r : Reading) (t : Text) : Reading :=
  match r.arguments.code with
  | none => { r with arguments := { r.arguments with code := some t }, justTaken := true }
  | some _ => { r with unrecognized := r.unrecognized ++ [t], justTaken := false }

/-- words that are not recognized -/
def Reading.leave (r : Reading) (ts : List Text) : Reading := { r with unrecognized := r.unrecognized ++ ts }

/-- a word with flags, which are followed by this one -/
def Reading.flags (release : Release) (r : Reading) (f : Flag) (short : Bool) (attached : Option Attachment)
    (next : Option Text) : Except Refusal (Reading × Bool) := do
  let call ← (flagsOf release f short attached next).mapError .usage
  let a ← r.arguments.setAll release call.flags
  return ({ r.leave call.unrecognized with arguments := a, justTaken := false }, call.tookNext)

/-- go through the words -/
def readWords (release : Release) (r : Reading) : List Word → Except Refusal Reading
  | [] => .ok r
  | .plain t :: rest => readWords release (r.plain t) rest
  | .unknown t :: rest => readWords release { r.leave [t] with justTaken := false } rest
  | .separator :: rest =>
    if r.justTaken || r.arguments.code.isNone then readWords release r rest
    else readWords release (r.leave [Word.separatorText]) rest
  | .flag f short attached :: .plain t :: rest => do
    let (r, tookNext) ← r.flags release f short attached (some t)
    if tookNext then readWords release r rest else readWords release (r.plain t) rest
  | .flag f short attached :: rest => do
    let (r, _) ← r.flags release f short attached none
    readWords release r rest

/-- what the words of a command line ask for -/
def read (words : List Text) (release : Release := .early) : Except Refusal Arguments := do
  let sorted ← (Word.sortAll words).mapError .usage
  let r ← readWords release {} sorted
  if r.unrecognized.isEmpty then return r.arguments else throw (.usage (.unrecognized r.unrecognized))

end Arguments

end Brainfuck.CommandLine
