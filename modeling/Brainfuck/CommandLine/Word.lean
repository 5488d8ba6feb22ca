/-
The words of a command line.

Each word is sorted before any is acted on. A word is a flag if it is a name of one, with an operand behind an equals
sign, or a text that begins the long name of just one flag, or a short name with more characters attached. Other words
with a leading hyphen are unknown flags, unless they are a negative number, hold a space, or are a hyphen alone; then
they are plain, as is everything behind a separator of two hyphens.

A word is a text: bytes that are no UTF-8 come as lone surrogates.
-/
import Brainfuck.CommandLine.Flag
import Brainfuck.Decimal.Numeral
import Brainfuck.Text.Encoding
import Brainfuck.Text.Lines

namespace Brainfuck.CommandLine

/-- why a command line is not understood -/
inductive UsageError where
  | ambiguous (word : Text) (names : List String)
  | unrecognized (words : List Text)
  | missingOperand (f : Flag)
  | notInteger (f : Flag) (word : Text)
  | notPolicy (f : Flag) (word : Text)
  /-- an operand attached to a flag that takes none -/
  | unusedOperand (f : Flag) (operand : Text)
deriving DecidableEq, Repr

def UsageError.message : UsageError → String
  | ambiguous word names => s!"ambiguous option: {word.printed} could match " ++ ", ".intercalate names
  | unrecognized words => "unrecognized arguments: " ++ " ".intercalate (words.map Text.printed)
  | missingOperand f => s!"argument {f.title}: expected one argument"
  | notInteger f word => s!"argument {f.title}: invalid int value: {Quoted.text word}"
  | notPolicy f word =>
    s!"argument {f.title}: invalid choice: {Quoted.text word} (choose from " ++
      ", ".intercalate (EofPolicy.all.map fun p => Quoted.string p.name) ++ ")"
  | unusedOperand f operand => s!"argument {f.title}: ignored explicit argument {Quoted.text operand}"

/-- the hyphen -/
def hyphen : CodePoint := .char '-'

/-- the sign between a flag and its operand -/
def equalsSign : CodePoint := .char '='

/-- a text attached to a flag, and whether it stands behind an equals sign -/
structure Attachment where
  text : Text
  behindEquals : Bool
deriving DecidableEq, Repr

/-- a word of the command line -/
inductive Word where
  | plain (s : Text)
  /-- a flag, whether it was called by a short name, and what is attached to it -/
  | flag (f : Flag) (short : Bool) (attached : Option Attachment)
  | unknown (s : Text)
  | separator
deriving DecidableEq, Repr

namespace Word

/-- the part before the first equals sign and, if there is one, the part behind it -/
def splitEquals (t : Text) : Text × Option Text :=
  match t.dropWhile (· != equalsSign) with
  | [] => (t, none)
  | _ :: operand => (t.takeWhile (· != equalsSign), some operand)

/-- a short name has one hyphen -/
def isShort : Text → Bool
  | .char '-' :: .char '-' :: _ => false
  | _ => true

/-- a hyphen, and digits with at most one point, which has a digit behind it; a line feed may follow -/
def isNegativeNumber : List Char → Bool
  | '-' :: cs =>
    let isDigit (c : Char) := (digit? c).isSome
    let cs := withoutLineFeed cs
    match cs.dropWhile isDigit with
    | [] => !cs.isEmpty
    | '.' :: fraction => !fraction.isEmpty && fraction.all isDigit
    | _ => false
  | _ => false

/-- the flags that a word with a leading hyphen and no exact name may stand for, with the name of each -/
def candidates (t : Text) : List (String × Word) :=
  if isShort t then
    match Flag.named? (t.take 2) with
    | some f => [(Text.printed (t.take 2), flag f true (some ⟨t.drop 2, false⟩))]
    | none => []
  else
    let (name, attached) := splitEquals t
    (Flag.withPrefix name).map fun (n, f) => (n, flag f false (attached.map (⟨·, true⟩)))

/-- sort a word that begins with a hyphen and more -/
def sortHyphened (t : Text) : Except UsageError Word :=
  match candidates t with
  | [(_, w)] => .ok w
  | [] => .ok (if isNegativeNumber t.toChars || t.contains (.char ' ') then plain t else unknown t)
  | found => .error (.ambiguous t (found.map Prod.fst))

/-- sort a word that is no separator -/
def sort (t : Text) : Except UsageError Word :=
  match t with
  | .char '-' :: _ :: _ =>
    match Flag.named? t, splitEquals t with
    | some f, _ => .ok (flag f (isShort t) none)
    | none, (name, some operand) =>
      match Flag.named? name with
      | some f => .ok (flag f (isShort name) (some ⟨operand, true⟩))
      | none => sortHyphened t
    | none, (_, none) => sortHyphened t
  | _ => .ok (plain t)

/-- the word that ends the flags -/
def separatorText : Text := "--"

/-- sort all words; behind a separator they are plain -/
def sortAll : List Text → Except UsageError (List Word)
  | [] => .ok []
  | t :: rest =>
    if t = separatorText then .ok (separator :: rest.map plain)
    else do
      let w ← sort t
      return w :: (← sortAll rest)

end Word

end Brainfuck.CommandLine
