/-
Numbers as YAML 1.1 spells them.

Underscores do not count. An integer is binary after `0b`, hexadecimal after `0x`, octal after any other leading zero,
and decimal otherwise; digits between colons count in sixties.
-/
import Brainfuck.Decimal.Shortest
import Brainfuck.Text.Lines
import Brainfuck.Text.Lowercase
import Brainfuck.Yaml.Error

namespace Brainfuck.Yaml.Number

/-- the text without underscores -/
def bare (t : Text) : Text := t.filter (· != .char '_')

/-- whether a minus sign leads, and what follows the sign; there must be something before the sign is looked for -/
def sign : Text → Except Error (Bool × Text)
  | [] => .error .noDigit
  | .char '-' :: t => .ok (true, t)
  | .char '+' :: t => .ok (false, t)
  | t => .ok (false, t)

/-- an integer in a base -/
def intIn (base : Nat) (t : Text) : Except Error Int := (Numeral.readIn base t).mapError .number

/-- the number whose digits in base sixty are these, most significant first -/
def sixties (ds : List Int) : Int := ds.foldl (fun n d => 60 * n + d) 0

/-- the size of an integer, its sign aside -/
def magnitude (t : Text) : Except Error Int :=
  match t with
  | [] => .error .noDigit
  | [.char '0'] => .ok 0
  | .char '0' :: .char 'b' :: rest => intIn 2 rest
  | .char '0' :: .char 'x' :: rest => intIn 16 rest
  | .char '0' :: _ => intIn 8 t
  | t => if t.contains (.char ':') then sixties <$> (cutAt (.char ':') t).mapM (intIn 10) else intIn 10 t

def int (t : Text) : Except Error Int := do
  let (negative, body) ← sign (bare t)
  let n ← magnitude body
  return if negative then -n else n

/-- the digits at the front, and what follows -/
def digits (cs : List Char) : List Nat × List Char :=
  let ds := cs.takeWhile fun c => (digit? c).isSome
  (ds.filterMap digit?, cs.drop ds.length)

/-- an exponent, if one is there -/
def exponent (cs : List Char) : Int × List Char :=
  match cs with
  | 'e' :: rest =>
    let (negative, rest) := Numeral.sign rest
    match digits rest with
    | ([], _) => (0, cs)
    | (ds, rest) => (if negative then -(Numeral.value 10 ds : Int) else Numeral.value 10 ds, rest)
  | cs => (0, cs)

/-- a floating-point number in decimal notation, or one of its special values, in small letters -/
def decimal? (cs : List Char) : Option Float :=
  let (negative, body) := Numeral.sign (trim Numeral.isOuterBlank cs)
  let signed (x : Float) : Float := if negative then -x else x
  match String.ofList body with
  | "inf" | "infinity" => some (signed (1.0 / 0.0))
  | "nan" => some (0.0 / 0.0)
  | _ =>
    let (whole, rest) := digits body
    let (fraction, rest) := match rest with
      | '.' :: rest => digits rest
      | rest => ([], rest)
    if whole.isEmpty && fraction.isEmpty then none
    else
      let (e, rest) := exponent rest
      if !rest.isEmpty then none
      else some (signed (Decimal.toFloat (Numeral.value 10 (whole ++ fraction)) (e - fraction.length)))

def floatPart (t : Text) : Except Error Float :=
  match decimal? t.toChars with
  | some x => .ok x
  | none => .error (.notFloat t)

/-- the sum of digits in base sixty, least significant first -/
def floatSixties (ds : List Float) : Float :=
  (ds.foldl (fun (sum, base) d => (sum + d * base, base * 60.0)) ((0.0 : Float), (1.0 : Float))).1

def float (t : Text) : Except Error Float := do
  let (negative, body) ← sign (bare t).lower
  let x ←
    if body = .ofString ".inf" then pure (1.0 / 0.0)
    else if body = .ofString ".nan" then pure (0.0 / 0.0)
    else if body.contains (.char ':') then floatSixties <$> ((cutAt (.char ':') body).reverse.mapM floatPart)
    else floatPart body
  return if negative then -x else x

end Brainfuck.Yaml.Number
