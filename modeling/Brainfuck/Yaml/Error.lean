/-
Why a text gives no YAML value.

Almost every mistake is `malformed`: the text breaks the grammar, a tag is not known, or a value does not fit its tag.
The other cases are values that are spelled like a number, a date or a character and are none, mappings that stand for a
text and have none, and bytes that are no text at all.
-/
import Brainfuck.Decimal.Numeral

namespace Brainfuck.Yaml

/-- what is wrong with a text -/
inductive Error where
  | malformed
  /-- the text ends within quotes -/
  | unclosed
  /-- a number with a sign or an underscore, but no digit -/
  | noDigit
  | number (e : NumeralError)
  | notFloat (text : Text)
  /-- a day or a time of day that does not exist -/
  | calendar (message : String)
  /-- a word that is no truth value, under a tag that wants one -/
  | notBoolean (text : Text)
  /-- a text that is no moment, under a tag that wants one -/
  | notMoment
  /-- a mapping that stands for a text, under a tag that wants a moment -/
  | mappingAsMoment
  /-- an escape past the last code point -/
  | codePoint (number : Nat)
  /-- a mapping whose default value leads back to it -/
  | endless
  /-- bytes that are no text -/
  | encoding (e : Utf8.Malformed)
deriving DecidableEq, Repr

namespace Error

/-- an error that says nothing but that the text is no YAML -/
def isMalformed : Error → Bool
  | malformed | unclosed => true
  | _ => false

/-- the largest number that an escape may spell before it is refused as a number -/
def numberLimit : Nat := 0x80000000

def message : Error → String
  | malformed | unclosed => "malformed"
  | noDigit => "string index out of range"
  | number e => e.message
  | notFloat t => s!"could not convert string to float: {Quoted.text t}"
  | calendar m => m
  | notBoolean t => Quoted.text t
  | notMoment => "'NoneType' object has no attribute 'groupdict'"
  | mappingAsMoment => "expected string or bytes-like object, got 'list'"
  | endless => "maximum recursion depth exceeded"
  | encoding e => e.message
  | codePoint n =>
    if n < numberLimit then "chr() arg not in range(0x110000)" else "Python int too large to convert to C int"

end Error

end Brainfuck.Yaml
