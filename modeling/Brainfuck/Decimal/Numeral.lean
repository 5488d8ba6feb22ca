/-
Reading an integer.

Blanks around the number are skipped, a sign may lead, and a single underscore may stand between two digits. Decimal
digits may come from any script; bases above ten go on with the letters. A number in base 2, 8 or 16 may carry its mark
(`0b`, `0o`, `0x`); one in another base has at most 4300 digits. The blanks are those of `isBlank` without the four
information separators.
-/
import Brainfuck.Text.Blank
import Brainfuck.Text.Digit
import Brainfuck.Text.Quoted

namespace Brainfuck

/-- why a text is no integer -/
inductive NumeralError where
  | malformed (base : Nat) (text : Text)
  | tooLong (digits : Nat)
deriving DecidableEq, Repr

namespace Numeral

/-- the most digits that are read -/
def digitLimit : Nat := 4300

/-- the quoted text is cut after so many characters -/
def quoteLimit : Nat := 200

end Numeral

def NumeralError.message : NumeralError → String
  | .malformed base t =>
    let quoted := (Quoted.text t).toList.take Numeral.quoteLimit
    s!"invalid literal for int() with base {base}: {String.ofList quoted}"
  | .tooLong n =>
    s!"Exceeds the limit ({Numeral.digitLimit} digits) for integer string conversion: value has {n} digits; " ++
      "use sys.set_int_max_str_digits() to increase the limit"

namespace Numeral

/-- a blank that may stand around a number -/
def isOuterBlank (c : Char) : Bool := isBlank c && !(28 ≤ c.toNat && c.toNat ≤ 31)

/-- the value of a digit in a base of at most sixteen -/
def digitIn? (base : Nat) (c : Char) : Option Nat :=
  let letter (c : Char) := if 'a' ≤ c ∧ c ≤ 'f' then some (c.toNat - 'a'.toNat + 10) else none
  ((digit? c).or (letter c.toLower)).filter (· < base)

/-- the digits at the front, most significant first, and what follows; `none` if an underscore does not stand between
two digits -/
def digits (base : Nat) : List Char → Option (List Nat × List Char)
  | [] => some ([], [])
  | c :: cs =>
    match digitIn? base c with
    | none => some ([], c :: cs)
    | some d =>
      match cs with
      | '_' :: rest =>
        match digits base rest with
        | some (e :: ds, rest) => some (d :: e :: ds, rest)
        | _ => none
      | cs => (digits base cs).map fun (ds, rest) => (d :: ds, rest)

/-- the number that digits spell -/
def value (base : Nat) (ds : List Nat) : Nat := ds.foldl (fun n d => base * n + d) 0

/-- a sign and what follows it -/
def sign : List Char → Bool × List Char
  | '-' :: cs => (true, cs)
  | '+' :: cs => (false, cs)
  | cs => (false, cs)

/-- the letter of a base's mark -/
def mark? : Nat → Option Char
  | 2 => some 'b'
  | 8 => some 'o'
  | 16 => some 'x'
  | _ => none

/-- what follows the mark of the base, if the text has it -/
def afterMark (base : Nat) (cs : List Char) : List Char :=
  match cs with
  | '0' :: c :: rest =>
    if mark? base = some c.toLower then
      match rest with
      | '_' :: rest => rest
      | rest => rest
    else cs
  | cs => cs

/-- the integer that characters spell in a base -/
def ofChars (base : Nat) (cs : List Char) : Except NumeralError Int :=
  let (negative, body) := sign (cs.dropWhile isOuterBlank)
  match digits base (afterMark base body) with
  | none | some ([], _) => .error (.malformed base (.ofChars cs))
  | some (ds, rest) =>
    if (mark? base).isNone && digitLimit < ds.length then .error (.tooLong ds.length)
    else if rest.all isOuterBlank then
      .ok (if negative then -(value base ds : Int) else value base ds)
    else .error (.malformed base (.ofChars cs))

/-- the integer that a text spells in a base -/
def readIn (base : Nat) (t : Text) : Except NumeralError Int :=
  (ofChars base t.toChars).mapError fun
    | .malformed base _ => .malformed base t
    | e => e

/-- the integer that characters spell in decimal notation -/
def read (cs : List Char) : Except NumeralError Int := ofChars 10 cs

end Numeral

end Brainfuck
