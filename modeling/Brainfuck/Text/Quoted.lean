/-
The quoted form of a text and of a byte string, as messages show them.

The delimiter is the single quote, or the double quote if the text holds a single and no double one. The delimiter, the
backslash and everything unprintable are escaped; a byte string is quoted after a `b`, and all its bytes outside
printable ASCII are escaped.
-/
import Brainfuck.Text.Basic
import Brainfuck.Text.Printable
import Brainfuck.Text.Utf8

namespace Brainfuck.Quoted

/-- the delimiter for a text that holds these characters -/
def delimiter (hasSingle hasDouble : Bool) : Char := if hasSingle && !hasDouble then '"' else '\''

/-- an escape by number: two, four or eight hexadecimal digits -/
def numbered (n : Nat) : String :=
  if n < 0x100 then "\\x" ++ Utf8.hex 2 n
  else if n < 0x10000 then "\\u" ++ Utf8.hex 4 n
  else "\\U" ++ Utf8.hex 8 n

def escapeChar (quote c : Char) : String :=
  if c = quote || c = '\\' then String.ofList ['\\', c]
  else if c = '\n' then "\\n"
  else if c = '\r' then "\\r"
  else if c = '\t' then "\\t"
  else if isPrintable c then c.toString
  else numbered c.toNat

def escapePoint (quote : Char) : CodePoint → String
  | .char c => escapeChar quote c
  | .surrogate i => numbered (CodePoint.surrogate i).toNat

/-- the quoted form of a text -/
def text (t : Text) : String :=
  let quote := delimiter (t.contains (.char '\'')) (t.contains (.char '"'))
  quote.toString ++ String.join (t.map (escapePoint quote)) ++ quote.toString

def string (s : String) : String := text (.ofString s)

def escapeByte (quote : Char) (b : UInt8) : String :=
  if b < 127 then escapeChar quote (Char.ofNat b.toNat) else numbered b.toNat

/-- the quoted form of a byte string -/
def bytes (bs : List UInt8) : String :=
  let quote := delimiter (bs.contains 39) (bs.contains 34)
  "b" ++ quote.toString ++ String.join (bs.map (escapeByte quote)) ++ quote.toString

/-- the texts quoted, in brackets -/
def list (items : List String) : String := "[" ++ ", ".intercalate items ++ "]"

example : string "it's" = "\"it's\"" := by cbv
example : string "a\"b'c\n" = "'a\"b\\'c\\n'" := by cbv

end Brainfuck.Quoted
