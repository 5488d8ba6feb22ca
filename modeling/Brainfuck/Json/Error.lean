/-
What can be wrong with a JSON document, and where.
-/
import Brainfuck.Decimal.Numeral
import Brainfuck.Script

namespace Brainfuck.Json

/-- in which way a document is no JSON -/
inductive Flaw where
  | byteOrderMark
  | noValue
  | noKey
  | noColon
  | noComma
  | extraData
  | unterminatedString
  | controlCharacter
  | badEscape
  | badCodePoint
deriving DecidableEq, Repr

def Flaw.wording : Flaw → String
  | .byteOrderMark => "Unexpected UTF-8 BOM (decode using utf-8-sig)"
  | .noValue => "Expecting value"
  | .noKey => "Expecting property name enclosed in double quotes"
  | .noColon => "Expecting ':' delimiter"
  | .noComma => "Expecting ',' delimiter"
  | .extraData => "Extra data"
  | .unterminatedString => "Unterminated string starting at"
  | .controlCharacter => "Invalid control character at"
  | .badEscape => "Invalid \\escape"
  | .badCodePoint => "Invalid \\uXXXX escape"

/-- why a document is not read -/
inductive Error where
  | flawed (flaw : Flaw) (place : Place)
  /-- an integer that is too long to be read -/
  | longNumber (e : NumeralError)
  /-- a list, or a mapping, that is nested deeper than the stack allows -/
  | tooDeep (isMapping : Bool)
deriving DecidableEq, Repr

def Error.message : Error → String
  | .flawed flaw place =>
    s!"{flaw.wording}: line {place.line} column {place.column} (char {place.position})"
  | .longNumber e => e.message
  | .tooDeep isMapping =>
    let kind := if isMapping then "object" else "array"
    s!"maximum recursion depth exceeded while decoding a JSON {kind} from a unicode string"

end Brainfuck.Json
