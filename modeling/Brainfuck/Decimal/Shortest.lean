/-
The shortest decimal that reads back as a given binary floating-point number.

A finite double is `m * 2^q` with a 53-bit `m`. The reals that round to it form an interval around it, which holds its
ends exactly if `m` is even. For 1, 2, …, 17 digits the two neighbours of the number on that decimal grid are tried, and
the first grid with a neighbour in the interval wins; of two the nearer one is taken, and of two equally near ones the
even one. All of it is exact arithmetic on natural numbers.
-/

namespace Brainfuck.Decimal

/-- the leading bit of `m`, which a double does not store -/
def hiddenBit : Nat := 0x10000000000000

/-- a positive finite double: `m * 2^q` -/
structure Binary where
  m : Nat
  q : Int
deriving DecidableEq, Repr

/-- a positive decimal: `digits * 10^exponent` -/
structure Digits where
  digits : Nat
  exponent : Int
deriving DecidableEq, Repr

/-- `n * b^e` as a fraction -/
def scaled (n : Nat) (b : Nat) (e : Int) : Nat × Nat :=
  if 0 ≤ e then (n * Nat.pow b e.toNat, 1) else (n, Nat.pow b (-e).toNat)

/-- `a ≤ b` for fractions with positive denominators -/
def leFrac (a b : Nat × Nat) : Bool := a.1 * b.2 ≤ b.1 * a.2

def ltFrac (a b : Nat × Nat) : Bool := a.1 * b.2 < b.1 * a.2

namespace Binary

def value (x : Binary) : Nat × Nat := scaled x.m 2 x.q

/-- the lower end of the interval; it is nearer where the spacing of the doubles changes -/
def lower (x : Binary) : Nat × Nat :=
  if x.m = hiddenBit ∧ -1074 < x.q then scaled (4 * x.m - 1) 2 (x.q - 2) else scaled (2 * x.m - 1) 2 (x.q - 1)

/-- the upper end of the interval -/
def upper (x : Binary) : Nat × Nat := scaled (2 * x.m + 1) 2 (x.q - 1)

/-- a fraction that rounds to the number -/
def covers (x : Binary) (f : Nat × Nat) : Bool :=
  if x.m % 2 = 0 then leFrac x.lower f && leFrac f x.upper else ltFrac x.lower f && ltFrac f x.upper

/-- the exponent of the leading decimal digit -/
def magnitude (x : Binary) : Int :=
  let v := x.value
  ((Nat.toDigits 10 (v.1 * Nat.pow 10 400 / v.2)).length : Int) - 401

/-- the better neighbour on the grid of a decimal exponent, if one rounds to the number -/
def onGrid (x : Binary) (e : Int) : Option Nat :=
  let v := x.value
  let unit := scaled 1 10 e
  let below := v.1 * unit.2 / (v.2 * unit.1)
  let low := x.covers (scaled below 10 e)
  let high := x.covers (scaled (below + 1) 10 e)
  -- twice the number against the sum of its two neighbours
  let twice := (2 * v.1, v.2)
  let sum := scaled (2 * below + 1) 10 e
  if low && high then
    if ltFrac twice sum then some below
    else if ltFrac sum twice then some (below + 1)
    else some (if below % 2 = 0 then below else below + 1)
  else if low && below != 0 then some below
  else if high then some (below + 1)
  else none

/-- the fewest digits that read back, then the nearest of those -/
def shortest (x : Binary) : Digits :=
  let top := x.magnitude
  match (List.range 17).findSome? fun (n : Nat) => (x.onGrid (top - n)).map fun d => Digits.mk d (top - n) with
  | some d => d
  | none => ⟨x.m, 0⟩

end Binary

/-- what a double is -/
inductive Double where
  | finite (negative : Bool) (x : Option Binary)
  | infinite (negative : Bool)
  | notANumber
deriving DecidableEq, Repr

/-- the parts of a double, from its bits; `none` stands for zero -/
def Double.ofBits (bits : UInt64) : Double :=
  let n := bits.toNat
  let negative := 0x8000000000000000 ≤ n
  let exponent : Nat := n / hiddenBit % 2048
  let fraction := n % hiddenBit
  if exponent = 2047 then if fraction = 0 then .infinite negative else .notANumber
  else if exponent = 0 then
    .finite negative (if fraction = 0 then none else some ⟨fraction, -1074⟩)
  else .finite negative (some ⟨hiddenBit + fraction, (exponent : Int) - 1075⟩)

/-- where positional notation begins and ends, and how an exponent is written -/
structure Layout where
  /-- the least exponent of the leading digit that is written positionally -/
  least : Int
  /-- the first exponent of the leading digit that is not -/
  bound : Int
  exponentWidth : Nat
  infinity : String
  notANumber : String

/-- positional from `0.0001` to below `10^16`, with a point in it; an exponent has a sign and at least two digits -/
def Layout.plain : Layout := ⟨-4, 16, 2, "inf", "nan"⟩

def padLeft (width : Nat) (pad : Char) (s : List Char) : List Char := List.replicate (width - s.length) pad ++ s

/-- the digits without the zeros at their end -/
def withoutTrailingZeros (ds : List Char) : List Char := (ds.reverse.dropWhile (· = '0')).reverse

def Layout.writeDigits (l : Layout) (d : Digits) : String :=
  let all := Nat.toDigits 10 d.digits
  let top := d.exponent + all.length - 1
  let ds := match withoutTrailingZeros all with
    | [] => ['0']
    | ds => ds
  if l.least ≤ top ∧ top < l.bound then
    if top < 0 then String.ofList ("0.".toList ++ List.replicate (-top - 1).toNat '0' ++ ds)
    else
      let whole := top.toNat + 1
      let front := ds.take whole ++ List.replicate (whole - ds.length) '0'
      let back := match ds.drop whole with
        | [] => ['0']
        | back => back
      String.ofList (front ++ '.' :: back)
  else
    let mantissa := match ds with
      | [d] => [d]
      | d :: rest => d :: '.' :: rest
      | [] => []
    let sign := if top < 0 then '-' else '+'
    String.ofList (mantissa ++ 'e' :: sign :: padLeft l.exponentWidth '0' (Nat.toDigits 10 top.natAbs))

def Layout.write (l : Layout) : Double → String
  | .notANumber => l.notANumber
  | .infinite negative => (if negative then "-" else "") ++ l.infinity
  | .finite negative x =>
    (if negative then "-" else "") ++ match x with
      | none => "0.0"
      | some x => l.writeDigits x.shortest

/-- the text of a floating-point number -/
def ofFloat (x : Float) : String := Layout.plain.write (.ofBits x.toBits)

/-- the number `digits * 10^exponent`, rounded to the nearest double -/
def toFloat (digits : Nat) (exponent : Int) : Float :=
  let top := exponent + (Nat.toDigits 10 digits).length
  if digits = 0 then 0.0
  else if 400 < top then 1.0 / 0.0
  else if top < -400 then 0.0
  else Float.ofScientific digits (exponent < 0) exponent.natAbs

end Brainfuck.Decimal
