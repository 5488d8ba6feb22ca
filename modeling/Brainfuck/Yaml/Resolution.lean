/-
What a plain scalar means: its tag follows from its text.

`Tag.ofPlain` knows the words and numbers of YAML 1.1. Letter case is restricted: a word counts in small letters, with a
capital, or in capitals. A number may hold underscores; digits between colons count in sixties.
-/
import Brainfuck.Text.Basic
import Brainfuck.Yaml.Tag
import Brainfuck.Yaml.Timestamp

namespace Brainfuck.Yaml.Plain

/-- the three ways to write a word: small, with a capital, in capitals -/
def spellings (word : String) : List (List Char) :=
  let cs := word.toList
  [cs, (cs.head?.map Char.toUpper).toList ++ cs.tail, cs.map Char.toUpper]

def isBool (cs : List Char) : Bool :=
  (["yes", "no", "true", "false", "on", "off"].flatMap spellings).contains cs

def isNull (cs : List Char) : Bool := (([] :: ['~'] :: spellings "null")).contains cs

/-- what follows a sign -/
def unsigned : List Char → List Char
  | '+' :: cs | '-' :: cs => cs
  | cs => cs

/-- a digit or an underscore -/
def isDigitMark (c : Char) : Bool := c.isDigit || c == '_'

/-- one or two digits, the first of two at most 5, after a colon; and so on to the end -/
def isSixties : List Char → Bool
  | [] => false
  | [':', d] => d.isDigit
  | ':' :: d :: e :: rest =>
    if d.isDigit && e.isDigit then d.toNat ≤ '5'.toNat && (rest.isEmpty || isSixties rest)
    else d.isDigit && isSixties (e :: rest)
  | _ => false

def isInt (cs : List Char) : Bool :=
  let cs := unsigned cs
  let body := cs.tail
  match cs with
  | [] => false
  | ['0'] => true
  | '0' :: 'b' :: rest => !rest.isEmpty && rest.all fun c => c == '0' || c == '1' || c == '_'
  | '0' :: 'x' :: rest => !rest.isEmpty && rest.all fun c => (Numeral.digitIn? 16 c).isSome && c.toNat < 128 || c == '_'
  | '0' :: rest => rest.all fun c => ('0' ≤ c && c ≤ '7') || c == '_'
  | c :: _ => c.isDigit && (body.all isDigitMark || isSixties (body.dropWhile isDigitMark))

/-- an exponent with its sign, or nothing -/
def isExponent : List Char → Bool
  | [] => true
  | e :: sign :: ds => (e == 'e' || e == 'E') && (sign == '+' || sign == '-') && !ds.isEmpty && ds.all Char.isDigit
  | _ => false

/-- digits between colons, in sixties, up to a point -/
def isSixtiesFloat (cs : List Char) : Bool :=
  let whole := cs.takeWhile (· != '.')
  match cs.drop whole.length with
  | '.' :: fraction =>
    whole.head?.any Char.isDigit && isSixties (whole.dropWhile isDigitMark) && fraction.all isDigitMark
  | _ => false

def isFloat (cs : List Char) : Bool :=
  let body := unsigned cs
  match body with
  | '.' :: rest =>
    ([".inf", ".Inf", ".INF"].map String.toList).contains body ||
      ([".nan", ".NaN", ".NAN"].map String.toList).contains cs ||
      (cs.head? == some '.' && rest.head?.any Char.isDigit && isExponent (rest.dropWhile isDigitMark))
  | _ =>
    isSixtiesFloat body ||
      (body.head?.any Char.isDigit &&
        match body.dropWhile isDigitMark with
        | '.' :: rest => isExponent (rest.dropWhile isDigitMark)
        | _ => false)

/-- the text without the line feed that ends it, unless that is all there is -/
def line (cs : List Char) : List Char := if 1 < cs.length && cs.getLast? = some '\n' then cs.dropLast else cs

end Plain

/-- the tag of a plain scalar -/
def Tag.ofPlain (t : Text) : Tag :=
  let cs := Plain.line t.toChars
  if Plain.isBool cs then .bool
  else if Plain.isFloat cs then .float
  else if Plain.isInt cs then .int
  else if cs = ['<', '<'] then .merge
  else if Plain.isNull cs then .null
  else if Timestamp.isPlain cs then .timestamp
  else if cs = ['='] then .value
  else if cs = ['!'] || cs = ['&'] || cs = ['*'] then .other
  else .str

end Brainfuck.Yaml
