/-
Days and moments as YAML spells them: a date, alone or with a time of day, a fraction of a second and a time zone.
-/
import Brainfuck.Calendar
import Brainfuck.Decimal.Numeral
import Brainfuck.Yaml.Error

namespace Brainfuck.Yaml

/-- the time of day in a timestamp -/
structure TimeOfDay where
  hour : Nat
  minute : Nat
  second : Nat
  /-- the digits behind the point -/
  fraction : List Char
  /-- minutes ahead of universal time -/
  offset : Option Int
deriving DecidableEq, Repr

/-- the parts of a timestamp; the day need not exist -/
structure Timestamp where
  year : Nat
  month : Nat
  day : Nat
  /-- month and day have two digits -/
  isPadded : Bool
  time : Option TimeOfDay
deriving DecidableEq, Repr

namespace Timestamp

/-- the number that ASCII digits spell -/
def number (ds : List Char) : Nat := Numeral.value 10 (ds.map fun d => d.toNat - '0'.toNat)

/-- between `least` and `most` digits, as many as there are -/
def digits? (least most : Nat) (cs : List Char) : Option (List Char × List Char) :=
  let ds := (cs.takeWhile Char.isDigit).take most
  if least ≤ ds.length then some (ds, cs.drop ds.length) else none

/-- what follows a character -/
def after? (c : Char) : List Char → Option (List Char)
  | d :: cs => if d = c then some cs else none
  | [] => none

def isSpace (c : Char) : Bool := c == ' ' || c == '\t'

/-- what stands between a date and a time: a `T`, or blanks -/
def separator? : List Char → Option (List Char)
  | 'T' :: cs | 't' :: cs => some cs
  | c :: cs => if isSpace c then some (cs.dropWhile isSpace) else none
  | [] => none

/-- a time zone at the end, after blanks; `none` if something else is left -/
def zone? (cs : List Char) : Option (Option Int) :=
  match cs.dropWhile isSpace with
  | [] => if cs.isEmpty then some none else none
  | ['Z'] => some (some 0)
  | sign :: rest =>
    if sign = '+' || sign = '-' then do
      let (hours, rest) ← digits? 1 2 rest
      let minutes ← match rest with
        | [] => some 0
        | rest => do
          let (ds, rest) ← digits? 2 2 (← after? ':' rest)
          if rest.isEmpty then some (number ds) else none
      let total : Int := number hours * 60 + minutes
      return some (if sign = '-' then -total else total)
    else none

/-- the time of day and the zone -/
def time? (cs : List Char) : Option TimeOfDay := do
  let (hour, cs) ← digits? 1 2 cs
  let (minute, cs) ← digits? 2 2 (← after? ':' cs)
  let (second, cs) ← digits? 2 2 (← after? ':' cs)
  let (fraction, cs) := match cs with
    | '.' :: cs => (cs.takeWhile Char.isDigit, cs.dropWhile Char.isDigit)
    | cs => ([], cs)
  return ⟨number hour, number minute, number second, fraction, ← zone? cs⟩

/-- the parts of a timestamp -/
def read? (cs : List Char) : Option Timestamp := do
  let (year, cs) ← digits? 4 4 cs
  let (month, cs) ← digits? 1 2 (← after? '-' cs)
  let (day, cs) ← digits? 1 2 (← after? '-' cs)
  let isPadded := month.length = 2 && day.length = 2
  match cs with
  | [] => return ⟨number year, number month, number day, isPadded, none⟩
  | cs => return ⟨number year, number month, number day, isPadded, some (← time? (← separator? cs))⟩

/-- a plain scalar that is a timestamp: a date alone must have two digits for month and day -/
def isPlain (cs : List Char) : Bool := (read? cs).any fun t => t.isPadded || t.time.isSome

/-- the first six digits of a fraction, as microseconds -/
def microseconds (fraction : List Char) : Nat :=
  number (fraction.take 6 ++ List.replicate (6 - fraction.length) '0')

/-- the day or the moment, if it exists -/
def value (t : Timestamp) : Except Error (Date ⊕ Moment) :=
  Except.mapError .calendar <| match t.time with
    | none => .inl <$> Date.of t.year t.month t.day
    | some d =>
      .inr <$> Moment.of t.year t.month t.day d.hour d.minute d.second (microseconds d.fraction) d.offset

end Timestamp

end Brainfuck.Yaml
