/-
Sorting the keys of a mapping.

Texts are ordered by code point and numbers by value, days and moments by time, and pairs by their first difference.
Values of different kinds have no order, so a list that mixes them cannot be sorted, unless it holds one value only.
-/
import Brainfuck.Value

namespace Brainfuck

/-- why two values have no order -/
inductive OrderFlaw where
  | differentKinds
  | dayAndMoment
  /-- moments of which one has an offset from universal time -/
  | mixedOffsets
deriving DecidableEq, Repr

def OrderFlaw.message : OrderFlaw → String
  | differentKinds => "values are not supported between different types"
  | dayAndMoment => "can't compare datetime.datetime to datetime.date"
  | mixedOffsets => "can't compare offset-naive and offset-aware datetimes"

namespace Value

/-- a place on the extended number line: minus infinity, a fraction, or infinity -/
inductive Extended where
  | least
  | fraction (numerator : Int) (denominator : Nat)
  | greatest

def Extended.lt : Extended → Extended → Bool
  | least, least | greatest, _ | fraction _ _, least => false
  | least, _ | fraction _ _, greatest => true
  | fraction m d, fraction n e => m * e < n * d

/-- the place of a number; `some none` is a number without a place -/
def place? : Value → Option (Option Extended)
  | float x =>
    match Decimal.Double.ofBits x.toBits with
    | .finite _ none => some (some (.fraction 0 1))
    | .finite negative (some b) =>
      some (some (.fraction (if negative then -(b.value.1 : Int) else b.value.1) b.value.2))
    | .infinite negative => some (some (if negative then .least else .greatest))
    | .notANumber => some none
  | v => v.number?.map fun n => some (.fraction n 1)

/-- lexicographic order of lists of numbers -/
def ltNumbers : List Nat → List Nat → Bool
  | [], [] => false
  | [], _ :: _ => true
  | _ :: _, [] => false
  | a :: s, b :: t => if a = b then ltNumbers s t else a < b

/-- the order of two values, if they have one -/
def lt (a b : Value) : Except OrderFlaw Bool :=
  match a, b with
  | text s, text t => .ok (Text.lt s t)
  | bytes s, bytes t => .ok (ltNumbers (s.map UInt8.toNat) (t.map UInt8.toNat))
  | date d, date e => .ok (d.ordinal < e.ordinal)
  | moment m, moment n =>
    if m.offset.isSome = n.offset.isSome then .ok (m.instant < n.instant) else .error .mixedOffsets
  | date _, moment _ | moment _, date _ => .error .dayAndMoment
  | pair a b, pair c d => if !a.sameKey c then lt a c else if !b.sameKey d then lt b d else .ok false
  | a, b =>
    match a.place?, b.place? with
    | some (some x), some (some y) => .ok (x.lt y)
    | some _, some _ => .ok false
    | _, _ => .error .differentKinds

/-- the value put in its place in a sorted list -/
def insertSorted (a : Value) : List Value → Except OrderFlaw (List Value)
  | [] => .ok [a]
  | b :: rest => do
    if ← lt b a then return b :: (← insertSorted a rest) else return a :: b :: rest

/-- the values in ascending order, if all of them can be compared -/
def sorted : List Value → Except OrderFlaw (List Value)
  | [] => .ok []
  | a :: rest => sorted rest >>= insertSorted a

end Value

end Brainfuck
