/-
The tape: a row of byte cells that can be extended to the right.

Only the cells up to the last one that was written are kept; the others are zero, so a tape may be longer than any
memory. Cells are read and written by a natural index inside the machine. For a signed index, as in `get?` and `set?`,
a negative number counts from the end and a wrong one is an error. `read_write_self` and `read_write_of_ne` are the
store laws, `read_grow` says that growing keeps what is there and adds zeros, and `length_grow` how much it adds.
-/
import Brainfuck.WordSize

namespace Brainfuck

/-- byte cells, and how they are extended -/
structure Tape where
  /-- the cells at the front; those behind them are zero -/
  cells : Array UInt8
  length : Nat
  growable : Bool
  /-- the least number of cells that an extension adds -/
  growthChunk : Int
  size_le : cells.size ≤ length
deriving DecidableEq, Repr

/-- why a cell cannot be read or written -/
inductive TapeError where
  | outOfBounds (index : Int) (length : Nat)
  /-- the index has more than 64 bits -/
  | noIndex
  | notByte (value : Int)
  /-- the value, or an index that only a word without a sign can hold, does not fit into a word with a sign -/
  | tooLarge
deriving DecidableEq, Repr

def TapeError.message : TapeError → String
  | .outOfBounds i n => s!"index {i} is out of bounds for axis 0 with size {n}"
  | .noIndex =>
    "only integers, slices (`:`), ellipsis (`...`), numpy.newaxis (`None`) and integer or boolean arrays are valid indices"
  | .notByte v => s!"Python integer {v} out of bounds for uint8"
  | .tooLarge => "Python int too large to convert to C long"

namespace Tape

/-- a tape of zero cells -/
def zeros (length : Nat) (growable : Bool) (growthChunk : Int) : Tape :=
  ⟨#[], length, growable, growthChunk, Nat.zero_le _⟩

/-- the cell at an index; the tape reads as zero past its end -/
def read (t : Tape) (i : Nat) : UInt8 := t.cells[i]?.getD 0

/-- cells with one of them replaced; cells that are missing before it are zero -/
def putCell (cells : Array UInt8) (i : Nat) (v : UInt8) : Array UInt8 :=
  if i < cells.size then cells.setIfInBounds i v else (cells ++ Array.replicate (i - cells.size) 0).push v

theorem size_putCell (cells : Array UInt8) (i : Nat) (v : UInt8) :
    (putCell cells i v).size = max cells.size (i + 1) := by
  unfold putCell
  split
  · rw [Array.size_setIfInBounds]; omega
  · simp only [Array.size_push, Array.size_append, Array.size_replicate]; omega

/-- the tape with one cell replaced; past the end nothing is stored -/
def write (t : Tape) (i : Nat) (v : UInt8) : Tape :=
  if h : i < t.length then
    { t with cells := putCell t.cells i v, size_le := by have := t.size_le; rw [size_putCell]; omega }
  else t

/-- the tape extended with zero cells until it holds at least `minLength` cells -/
def grow (t : Tape) (minLength : Int) : Tape :=
  if minLength ≤ t.length then t
  else
    { t with
      length := t.length + (max t.growthChunk (minLength - t.length)).toNat
      size_le := Nat.le_trans t.size_le (Nat.le_add_right ..) }

/-- all cells of the tape -/
def snapshot (t : Tape) : Array UInt8 := t.cells ++ Array.replicate (t.length - t.cells.size) 0

/-- the cell that a signed index names -/
def index? (t : Tape) (i : Int) : Option Nat :=
  if 0 ≤ i ∧ i < t.length then some i.toNat
  else if i < 0 ∧ 0 ≤ i + t.length then some (i + t.length).toNat
  else none

/-- what is wrong with an index that names no cell -/
def wrongIndex (t : Tape) (i : Int) : TapeError :=
  if fitsWord 64 i then .outOfBounds i t.length else if 0 ≤ i && i < 0x10000000000000000 then .tooLarge else .noIndex

/-- what is wrong with a value that is no byte -/
def wrongValue (v : Int) : TapeError := if fitsWord 64 v then .notByte v else .tooLarge

def get? (t : Tape) (i : Int) : Except TapeError UInt8 :=
  match t.index? i with
  | some k => .ok (t.read k)
  | none => .error (t.wrongIndex i)

/-- the tape with the cell at a signed index replaced; the index is checked before the value -/
def set? (t : Tape) (i v : Int) : Except TapeError Tape :=
  match t.index? i with
  | none => .error (t.wrongIndex i)
  | some k => if 0 ≤ v ∧ v ≤ 255 then .ok (t.write k (UInt8.ofNat v.toNat)) else .error (wrongValue v)

@[simp] theorem length_zeros (n : Nat) (g : Bool) (c : Int) : (zeros n g c).length = n := rfl

@[simp] theorem read_zeros (n : Nat) (g : Bool) (c : Int) (i : Nat) : (zeros n g c).read i = 0 := by
  simp [zeros, read]

@[simp] theorem length_write (t : Tape) (i : Nat) (v : UInt8) : (t.write i v).length = t.length := by
  unfold write
  split <;> rfl

@[simp] theorem growable_write (t : Tape) (i : Nat) (v : UInt8) : (t.write i v).growable = t.growable := by
  unfold write
  split <;> rfl

@[simp] theorem growthChunk_write (t : Tape) (i : Nat) (v : UInt8) : (t.write i v).growthChunk = t.growthChunk := by
  unfold write
  split <;> rfl

@[simp] theorem growable_grow (t : Tape) (m : Int) : (t.grow m).growable = t.growable := by
  unfold grow
  split <;> rfl

@[simp] theorem growthChunk_grow (t : Tape) (m : Int) : (t.grow m).growthChunk = t.growthChunk := by
  unfold grow
  split <;> rfl

theorem getD_putCell (cells : Array UInt8) (i j : Nat) (v : UInt8) :
    (putCell cells i v)[j]?.getD 0 = if i = j then v else cells[j]?.getD 0 := by
  unfold putCell
  split
  · next h =>
    by_cases hij : i = j
    · subst hij; simp [h]
    · simp [hij]
  · next h =>
    simp only [Array.getElem?_push, Array.size_append, Array.size_replicate, Array.getElem?_append,
      Array.getElem?_replicate]
    by_cases hij : i = j
    · subst hij
      rw [if_pos (by omega), if_pos rfl, Option.getD_some]
    · rw [if_neg (by omega), if_neg hij]
      by_cases hj : j < cells.size
      · rw [if_pos hj]
      · rw [if_neg hj, Array.getElem?_eq_none (by omega)]
        split <;> rfl

theorem read_write_self {t : Tape} {i : Nat} (v : UInt8) (h : i < t.length) : (t.write i v).read i = v := by
  simp [read, write, h, getD_putCell]

theorem read_write_of_ne {t : Tape} {i j : Nat} (v : UInt8) (h : i ≠ j) : (t.write i v).read j = t.read j := by
  unfold write
  split
  · simp [read, getD_putCell, h]
  · rfl

theorem index?_of_lt {t : Tape} {i : Nat} (h : i < t.length) : t.index? i = some i := by
  have hi : 0 ≤ (i : Int) ∧ (i : Int) < t.length := by omega
  simp only [index?, if_pos hi, Int.toNat_natCast]

theorem get?_of_lt {t : Tape} {i : Nat} (h : i < t.length) : t.get? i = .ok (t.read i) := by
  simp only [get?, index?_of_lt h]

theorem set?_of_lt {t : Tape} {i : Nat} (h : i < t.length) (b : UInt8) : t.set? i b.toNat = .ok (t.write i b) := by
  have hb : 0 ≤ (b.toNat : Int) ∧ (b.toNat : Int) ≤ 255 := by have := b.toNat_lt; omega
  simp only [set?, index?_of_lt h, if_pos hb, Int.toNat_natCast, UInt8.ofNat_toNat]

/-- the length after an extension -/
theorem length_grow (t : Tape) (m : Int) :
    ((t.grow m).length : Int) =
      if m ≤ t.length then (t.length : Int) else t.length + max t.growthChunk (m - t.length) := by
  unfold grow
  split
  · rfl
  · simp only [Int.natCast_add]
    omega

/-- a tape that grows holds as many cells as it is asked for, and none is lost -/
theorem le_length_grow (t : Tape) (m : Int) : m ≤ (t.grow m).length ∧ t.length ≤ (t.grow m).length := by
  have := length_grow t m
  split at this <;> omega

theorem read_grow (t : Tape) (m : Int) (i : Nat) : (t.grow m).read i = t.read i := by
  unfold grow
  split <;> rfl

end Tape

/-- one past the index of the last cell that is not zero -/
def usedLength (cells : Array UInt8) : Nat := go cells.size
where
  /-- the same among the first `n` cells -/
  go : Nat → Nat
    | 0 => 0
    | n + 1 => if cells[n]?.getD 0 = 0 then go n else n + 1

end Brainfuck
