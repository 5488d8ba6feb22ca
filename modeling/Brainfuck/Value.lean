/-
Values of a configuration file, and how a message shows them.

A value is what JSON or YAML can spell. A mapping keeps its entries in the order in which their keys came first, and the
last value of a key wins (`Value.insert`).
-/
import Brainfuck.Calendar
import Brainfuck.Decimal.Numeral
import Brainfuck.Decimal.Shortest
import Brainfuck.Text.Quoted

namespace Brainfuck

/-- a value of a configuration file -/
inductive Value where
  | null
  | bool (b : Bool)
  | int (n : Int)
  | float (x : Float)
  | text (t : Text)
  | bytes (bs : List UInt8)
  | date (d : Date)
  | moment (m : Moment)
  | list (items : List Value)
  /-- a key with its value, where an ordered mapping lists them -/
  | pair (key value : Value)
  | set (items : List Value)
  | mapping (entries : List (Value × Value))
  /-- a list or mapping that holds itself, seen from within -/
  | recurrence (isMapping : Bool)

namespace Value

def ofString (s : String) : Value := text (.ofString s)

/-- the name of the value's type -/
def typeName : Value → String
  | null => "NoneType"
  | bool _ => "bool"
  | int _ => "int"
  | float _ => "float"
  | text _ => "str"
  | bytes _ => "bytes"
  | date _ => "datetime.date"
  | moment _ => "datetime.datetime"
  | list _ => "list"
  | pair _ _ => "tuple"
  | set _ => "set"
  | mapping _ => "dict"
  | recurrence isMapping => if isMapping then "dict" else "list"

/-- the value is not empty, zero, false or null -/
def isTruthy : Value → Bool
  | null => false
  | bool b => b
  | int n => n != 0
  | float x => x != 0.0
  | text t => !t.isEmpty
  | bytes bs => !bs.isEmpty
  | list items | set items => !items.isEmpty
  | mapping entries => !entries.isEmpty
  | date _ | moment _ | pair _ _ | recurrence _ => true

mutual

/-- the value as a message shows it; the stack is taken to suffice for the nesting of the value -/
def quoted : Value → String
  | null => "None"
  | bool b => if b then "True" else "False"
  | int n => toString n
  | float x => Decimal.ofFloat x
  | text t => Quoted.text t
  | bytes bs => Quoted.bytes bs
  | date d => d.text
  | moment m => m.text
  | list items => Quoted.list (quotedAll items)
  | pair key value => s!"({key.quoted}, {value.quoted})"
  | set [] => "set()"
  | set items => "\x7b" ++ ", ".intercalate (quotedAll items) ++ "\x7d"
  | mapping entries => "\x7b" ++ ", ".intercalate (quotedEntries entries) ++ "\x7d"
  | recurrence isMapping => if isMapping then "\x7b...\x7d" else "[...]"

def quotedAll : List Value → List String
  | [] => []
  | v :: vs => v.quoted :: quotedAll vs

def quotedEntries : List (Value × Value) → List String
  | [] => []
  | (k, v) :: es => s!"{k.quoted}: {v.quoted}" :: quotedEntries es

end

mutual

/-- the value can be shown: no integer in it has too many digits -/
def isShowable : Value → Bool
  | int n => n.natAbs < 10 ^ Numeral.digitLimit
  | list items | set items => allShowable items
  | pair key value => key.isShowable && value.isShowable
  | mapping entries => entriesShowable entries
  | _ => true

def allShowable : List Value → Bool
  | [] => true
  | v :: vs => v.isShowable && allShowable vs

def entriesShowable : List (Value × Value) → Bool
  | [] => true
  | (k, v) :: es => k.isShowable && v.isShowable && entriesShowable es

end

/-- the value as running text: a text is shown without quotes -/
def display : Value → String
  | text t => t.toString
  | v => v.quoted

/-- the number that a value stands for as a key: truth values and whole floats count as integers -/
def number? : Value → Option Int
  | bool b => some (if b then 1 else 0)
  | int n => some n
  | float x =>
    match Decimal.Double.ofBits x.toBits with
    | .finite _ none => some 0
    | .finite negative (some b) =>
      let (num, den) := b.value
      if num % den = 0 then some (if negative then -(num / den : Int) else (num / den : Int)) else none
    | _ => none
  | _ => none

/-- two values that are the same key of a mapping -/
def sameKey (a b : Value) : Bool :=
  match a, b with
  | null, null => true
  | text s, text t => s = t
  | bytes s, bytes t => s = t
  | date d, date e => d = e
  | moment m, moment n => m.same n
  | pair a b, pair c d => sameKey a c && sameKey b d
  | float x, float y => x == y || (x.isNaN && y.isNaN)
  | a, b =>
    match a.number?, b.number? with
    | some m, some n => m = n
    | _, _ => false

/-- the value under a key -/
def find? (key : Value) (entries : List (Value × Value)) : Option Value :=
  (entries.find? fun e => e.1.sameKey key).map Prod.snd

/-- the entries with a key set to a value; a new key comes last -/
def insert (key value : Value) : List (Value × Value) → List (Value × Value)
  | [] => [(key, value)]
  | e :: es => if e.1.sameKey key then (e.1, value) :: es else e :: insert key value es

/-- the mapping of a list of entries, read from front to back -/
def ofEntries (entries : List (Value × Value)) : Value :=
  mapping (entries.foldl (fun es e => insert e.1 e.2 es) [])

end Value

end Brainfuck
