/-
Text as a list of code points.

A `Text` is what an escape in a configuration file can spell, and what the bytes of a command line come to: characters,
and surrogates that stand alone, which no `String` can hold. `Text.ofString` embeds the strings.

`Text.ofString_injective`: the embedding loses nothing, so option names can be compared as texts.
-/

namespace Brainfuck

/-- one code point: a character, or a surrogate that stands alone (`U+D800` plus the index) -/
inductive CodePoint where
  | char (c : Char)
  | surrogate (index : Fin 2048)
deriving DecidableEq, Repr

namespace CodePoint

/-- the number of the code point -/
def toNat : CodePoint → Nat
  | char c => c.toNat
  | surrogate i => 0xD800 + i.val

/-- the code point with a number below `0x110000`; larger numbers wrap into the surrogates -/
def ofNat (n : Nat) : CodePoint :=
  if h : n.isValidChar then char (Char.ofNatAux n h) else surrogate (Fin.ofNat 2048 (n - 0xD800))

theorem toNat_ofNat {n : Nat} (h : n < 0x110000) : (ofNat n).toNat = n := by
  by_cases hchar : n.isValidChar
  · rw [ofNat, dif_pos hchar]
    rfl
  · rw [ofNat, dif_neg hchar]
    -- the surrogates alone are in the range and no characters
    have hrange : 0xD800 ≤ n ∧ n < 0xE000 := by
      unfold Nat.isValidChar at hchar
      omega
    have hindex : (n - 0xD800) % 2048 = n - 0xD800 := Nat.mod_eq_of_lt (by omega)
    change 0xD800 + (n - 0xD800) % 2048 = n
    omega

end CodePoint

/-- a sequence of code points -/
abbrev Text := List CodePoint

namespace Text

def ofChars (cs : List Char) : Text := cs.map .char

def ofString (s : String) : Text := ofChars s.toList

/-- the characters of the text; a lone surrogate is shown as the replacement character -/
def toChars (t : Text) : List Char :=
  t.map fun
    | .char c => c
    | .surrogate _ => Char.ofNat 0xFFFD

def toString (t : Text) : String := String.ofList t.toChars

/-- order by code point, position by position; a text that runs out first is smaller -/
def lt : Text → Text → Bool
  | [], [] => false
  | [], _ :: _ => true
  | _ :: _, [] => false
  | a :: s, b :: t => if a.toNat = b.toNat then lt s t else a.toNat < b.toNat

instance : Coe String Text := ⟨ofString⟩

instance : Coe (List String) (List Text) := ⟨List.map ofString⟩

theorem toChars_ofChars (cs : List Char) : (ofChars cs).toChars = cs := by
  simp [ofChars, toChars, Function.comp_def]

theorem toString_ofString (s : String) : (ofString s).toString = s := by
  simp [ofString, toString, toChars_ofChars]

theorem ofString_injective {a b : String} (h : ofString a = ofString b) : a = b := by
  rw [← toString_ofString a, h, toString_ofString]

end Text

end Brainfuck
