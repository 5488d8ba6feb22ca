/-
Integers that fit into a machine word.
-/

namespace Brainfuck

/-- a word of so many bits, one of them for the sign, can hold the integer -/
def fitsWord (bits : Nat) (n : Int) : Bool := -Int.pow 2 (bits - 1) ≤ n && n < Int.pow 2 (bits - 1)

theorem fitsWord_iff {bits : Nat} {n : Int} :
    fitsWord bits n = true ↔ -Int.pow 2 (bits - 1) ≤ n ∧ n < Int.pow 2 (bits - 1) := by
  simp [fitsWord]

end Brainfuck
