/-
The order in which a set shows its numbers.

Members stand in a table, one after another put in the first free place that is tried for them. A number is first
tried at its remainder by the prime `2^61 - 1`, and the places near it; then the tries go round the table, at first in
a way that depends on the other bits of the remainder. The set is shown in the order of the table. Members that are no
numbers have no such place, so a set that holds one keeps the order in which it was spelled.
-/
import Brainfuck.Value

namespace Brainfuck.SetOrder

def modulus : Nat := 0x1FFFFFFFFFFFFFFF

/-- the remainder of a fraction whose denominator is a power of two: halving is multiplication by `2^60` -/
def remainder (numerator denominator : Nat) : Nat := numerator <<< (60 * denominator.log2 % 61) % modulus

/-- the code of a number's size and sign; minus one has the code of minus two -/
def signed (negative : Bool) (r : Nat) : UInt64 :=
  if negative then 0 - (if r = 1 then 2 else r.toUInt64) else r.toUInt64

/-- the code of an infinite number -/
def infinite : Nat := 314159

/-- the code of a number -/
def code? : Value → Option UInt64
  | .float x =>
    match Decimal.Double.ofBits x.toBits with
    | .finite _ none => some 0
    | .finite negative (some b) => some (signed negative (remainder b.value.1 b.value.2))
    | .infinite negative => some (signed negative infinite)
    | .notANumber => none
  | v => v.number?.map fun n => signed (n < 0) (n.natAbs % modulus)

/-- how many places near the first one are tried with it -/
def nearby : Nat := 9

/-- put a member into the first free place from `place` on -/
def put (v : Value) : Nat → Nat → UInt64 → Array (Option Value) → Array (Option Value)
  | 0, _, _, table => table
  | fuel + 1, place, rest, table =>
    let width := if place + nearby < table.size then nearby + 1 else 1
    match (List.range width).find? fun k => (table[place + k]?.join).isNone with
    | some k => table.setIfInBounds (place + k) (some v)
    | none =>
      let rest := rest >>> 5
      put v fuel ((place * 5 + 1 + rest.toNat) % table.size) rest table

/-- how many places the table for so many members has -/
def tableSize (count : Nat) : Nat := if count < 5 then 8 else 8 <<< ((count / 4).log2 + 1)

/-- the members in the order of the table -/
def order (members : List Value) : List Value :=
  match members.mapM code? with
  | none => members
  | some codes =>
    let size := tableSize members.length
    let table := (members.zip codes).foldl (fun table (v, code) =>
      put v (size + 16) (code.toNat % size) code table) (Array.replicate size none)
    table.toList.filterMap id

example : (order ([3, 1, 10, 8].map .int)).map Value.quoted = ["8", "1", "10", "3"] := by decide +kernel

end Brainfuck.SetOrder
