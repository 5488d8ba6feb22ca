/-
Words in any letter case, with blanks around them.

- `Text.strip`: the text without the blanks at its ends. `Text.toChars_strip` says that it may as well be cut after
  lone surrogates have been replaced, none of which is a blank.
- `CodePoint.lowerNumber_eq_iff`: of all characters of Unicode only an ASCII letter becomes an ASCII letter when it is
  made small, with one exception, the sign of Kelvin, which becomes a `k`.
- `Text.lower_eq_ofChars_iff`: so for words without a `k` it makes no difference whether all capitals are made small,
  or the ASCII ones only.
- `EofPolicy.read_eq_ok_iff`: a text is read as a policy if it is the policy's name, in this sense.
-/
import Mathlib.Tactic
import Brainfuck.Config.Draft
import Brainfuck.Text.Lowercase

namespace Brainfuck

/-! ## Blanks at the ends -/

namespace CodePoint

/-- the character, or the replacement character for a lone surrogate -/
def toChar : CodePoint → Char
  | char c => c
  | surrogate _ => Char.ofNat 0xFFFD

/-- a blank character -/
def isBlank (p : CodePoint) : Bool := Brainfuck.isBlank p.toChar

end CodePoint

namespace Text

/-- the text without the blanks at its ends -/
def strip (t : Text) : Text := ((t.dropWhile CodePoint.isBlank).reverse.dropWhile CodePoint.isBlank).reverse

theorem toChars_eq_map (t : Text) : t.toChars = t.map CodePoint.toChar := by
  unfold toChars
  congr 1

theorem toChars_strip (t : Text) : t.strip.toChars = Brainfuck.strip t.toChars := by
  have hblank : Brainfuck.isBlank ∘ CodePoint.toChar = CodePoint.isBlank := rfl
  rw [toChars_eq_map, toChars_eq_map, Brainfuck.strip, trim, List.dropWhile_map, ← List.map_reverse,
    List.dropWhile_map, ← List.map_reverse, hblank, strip]

end Text

/-! ## Small letters -/

/-- a character of a word: an ASCII character that is no capital, other than the letter `k` -/
def IsPlain (c : Char) : Prop := c.toNat < 128 ∧ ¬ (65 ≤ c.toNat ∧ c.toNat ≤ 90) ∧ c.toNat ≠ 107

instance (c : Char) : Decidable (IsPlain c) := inferInstanceAs (Decidable (_ ∧ _))

/-- a number that becomes `m` when ASCII capitals are made small -/
def LowersTo (n m : Nat) : Prop := (n = m ∧ ¬ (65 ≤ n ∧ n ≤ 90)) ∨ ((65 ≤ n ∧ n ≤ 90) ∧ n + 32 = m)

theorem LowersTo.lt {n m : Nat} (h : LowersTo n m) (hm : m < 128) : n < 128 := by
  unfold LowersTo at h
  omega

/-- the capitals are those of ASCII, the sign of Kelvin, and others that are far from ASCII, as are their small letters
-/
theorem far_of_mem_capitals : ∀ r ∈ capitals, (r.first = 65 ∧ r.last = 90 ∧ r.distance = 32) ∨
    (r.first = 8490 ∧ r.last = 8490 ∧ r.distance = -8383) ∨ (128 ≤ r.first ∧ 128 ≤ r.first + r.distance) := by
  decide +kernel

theorem capitalRun?_ascii {n : Nat} (h : 65 ≤ n ∧ n ≤ 90) : capitalRun? n = some ⟨65, 90, 1, 32⟩ := by
  unfold capitalRun? capitals capitals1
  rw [List.cons_append, List.cons_append, List.find?_cons_of_pos]
  simp [h, Nat.mod_one]

theorem toLower_eq_iff {c d : Char} : c.toLower = d ↔ LowersTo c.toNat d.toNat := by
  rw [← Char.toNat_inj]
  by_cases h : c.val ≥ 'A'.val ∧ c.val ≤ 'Z'.val
  · have hn : 65 ≤ c.toNat ∧ c.toNat ≤ 90 := h
    have hsmall : c.val.toNat + 32 < 2 ^ 32 := by
      have hle : c.val.toNat ≤ 90 := hn.2
      omega
    have hlower : c.toLower.toNat = c.toNat + 32 :=
      calc c.toLower.toNat = (c.val + 32).toNat := congrArg Char.toNat (dif_pos h)
        _ = (c.val.toNat + 32) % 2 ^ 32 := UInt32.toNat_add c.val 32
        _ = c.toNat + 32 := Nat.mod_eq_of_lt hsmall
    rw [hlower]
    unfold LowersTo
    omega
  · have hn : ¬ (65 ≤ c.toNat ∧ c.toNat ≤ 90) := h
    have hlower : c.toLower = c := dif_neg h
    rw [hlower]
    unfold LowersTo
    omega

namespace CodePoint

theorem lowerNumber_eq_iff {n m : Nat} (hascii : m < 128) (hkelvin : m ≠ 107) : lowerNumber n = m ↔ LowersTo n m := by
  by_cases hn : 65 ≤ n ∧ n ≤ 90
  · have hlower : lowerNumber n = n + 32 := by
      rw [lowerNumber, capitalRun?_ascii hn]
      rfl
    rw [hlower]
    unfold LowersTo
    omega
  · cases hrun : capitalRun? n with
    | none =>
      have hlower : lowerNumber n = n := by rw [lowerNumber, hrun]; rfl
      rw [hlower]
      unfold LowersTo
      omega
    | some r =>
      -- the capital lies beyond ASCII, and its small letter does so too or is a `k`
      have hmem : r ∈ capitals := List.mem_of_find?_eq_some hrun
      have hrange : r.first ≤ n ∧ n ≤ r.last := by
        have hfound := List.find?_some hrun
        simp only [Bool.and_eq_true, decide_eq_true_eq] at hfound
        exact hfound.1
      have hlower : lowerNumber n = ((n : Int) + r.distance).toNat := by rw [lowerNumber, hrun]; rfl
      rw [hlower]
      unfold LowersTo
      rcases far_of_mem_capitals r hmem with ⟨hfirst, hlast, -⟩ | ⟨hfirst, hlast, hdistance⟩ | ⟨hfirst, hsmall⟩
      all_goals omega

theorem ofNat_eq_char_iff {n : Nat} {c : Char} : ofNat n = .char c ↔ n = c.toNat := by
  constructor
  · intro h
    by_cases hvalid : n.isValidChar
    · have hchar : ofNat n = .char (Char.ofNatAux n hvalid) := dif_pos hvalid
      cases hchar.symm.trans h
      rfl
    · have hsurrogate : ofNat n = .surrogate (Fin.ofNat 2048 (n - 0xD800)) := dif_neg hvalid
      cases hsurrogate.symm.trans h
  · rintro rfl
    have hvalid : c.toNat.isValidChar := c.valid
    exact dif_pos hvalid

/-- a code point is made small alike as a number and as a character, if a plain character comes out -/
theorem toLower_toChar_eq_iff {p : CodePoint} {d : Char} (hd : IsPlain d) :
    p.toChar.toLower = d ↔ lowerNumber p.toNat = d.toNat := by
  rw [lowerNumber_eq_iff hd.1 hd.2.2, toLower_eq_iff]
  cases p with
  | char c => rfl
  | surrogate i =>
    -- neither the surrogate nor what stands for it is an ASCII character
    obtain ⟨hascii, -⟩ := hd
    have hchar : (surrogate i).toChar.toNat = 65533 := rfl
    have hnumber : (surrogate i).toNat = 55296 + i.val := rfl
    unfold LowersTo
    omega

end CodePoint

namespace Text

/-- every code point of a plain word is one of ASCII -/
theorem lt_of_mem_ofChars {word : List Char} (hword : ∀ c ∈ word, IsPlain c) {n : Nat}
    (h : CodePoint.ofNat n ∈ ofChars word) : n < 128 := by
  obtain ⟨c, hc, hn⟩ := List.mem_map.1 h
  rw [CodePoint.ofNat_eq_char_iff.1 hn.symm]
  exact (hword c hc).1

/-- whether all capitals are made small or the ASCII ones only, the same texts become a plain word -/
theorem lowerFrom_eq_ofChars_iff {word : List Char} (hword : ∀ c ∈ word, IsPlain c) (before : Bool) (t : Text) :
    lowerFrom before t = ofChars word ↔ lowerAscii t.toChars = word := by
  induction t generalizing before word with
  | nil => cases word <;> simp [lowerFrom, ofChars, lowerAscii, toChars]
  | cons p rest ih =>
    cases word with
    | nil =>
      simp only [lowerFrom, ofChars, List.map_nil, List.append_eq_nil_iff, lowerAscii, toChars, List.map_cons,
        reduceCtorEq, iff_false, not_and]
      intro hsmall
      split at hsmall
      · cases hsmall
      · split at hsmall <;> cases hsmall
    | cons d ds =>
      obtain ⟨hd, hds⟩ := List.forall_mem_cons.1 hword
      have hascii : lowerAscii (toChars (p :: rest)) = d :: ds ↔
          CodePoint.lowerNumber p.toNat = d.toNat ∧ lowerAscii (toChars rest) = ds := by
        rw [← CodePoint.toLower_toChar_eq_iff hd, toChars_eq_map, toChars_eq_map, lowerAscii, lowerAscii,
          List.map_cons, List.map_cons, List.cons.injEq]
      rw [hascii, ← ih hds p.isCased, CodePoint.lowerNumber_eq_iff hd.1 hd.2.2]
      simp only [lowerFrom]
      -- the dotted capital I and the capital sigma are no characters of ASCII, and neither is what they become
      split
      · rename_i hdotted
        refine iff_of_false (fun h => ?_) fun h => absurd (h.1.lt hd.1) (by rw [hdotted]; decide)
        have hmem : CodePoint.ofNat 775 ∈ ofChars (d :: ds) := h ▸ by simp
        exact absurd (lt_of_mem_ofChars hword hmem) (by decide)
      · split
        · rename_i hsigma
          have hn : p.toNat = CodePoint.capitalSigma := by
            simp only [Bool.and_eq_true, decide_eq_true_eq] at hsigma
            exact hsigma.1.1
          refine iff_of_false (fun h => ?_) fun h => absurd (h.1.lt hd.1) (by rw [hn]; decide)
          have hmem : CodePoint.ofNat CodePoint.finalSigma ∈ ofChars (d :: ds) := h ▸ by simp
          exact absurd (lt_of_mem_ofChars hword hmem) (by decide)
        · rw [List.singleton_append, ofChars, List.map_cons, List.cons.injEq, CodePoint.ofNat_eq_char_iff,
            CodePoint.lowerNumber_eq_iff hd.1 hd.2.2]
          rfl

theorem lower_eq_ofChars_iff {word : List Char} (hword : ∀ c ∈ word, IsPlain c) (t : Text) :
    t.lower = ofChars word ↔ lowerAscii t.toChars = word :=
  lowerFrom_eq_ofChars_iff hword false t

end Text

/-! ## Names of policies -/

namespace EofPolicy

theorem ofName?_eq_some_iff {name : String} {p : EofPolicy} : ofName? name = some p ↔ name = p.name := by
  constructor
  · intro h
    have hfound := List.find?_some h
    exact (of_decide_eq_true hfound).symm
  · rintro rfl
    exact ofName?_name p

theorem plain_name (p : EofPolicy) : ∀ c ∈ p.name.toList, IsPlain c := by
  have hall : (p.name.toList.all fun c => decide (IsPlain c)) = true := by cases p <;> decide
  exact fun c hc => of_decide_eq_true (List.all_eq_true.1 hall c hc)

/-- a text is read as the policy whose name it is, without blanks around it and in small letters -/
theorem read_eq_ok_iff {t : Text} {p : EofPolicy} : read t = .ok p ↔ t.strip.lower = .ofString p.name := by
  have hname : ofName? (String.ofList (lowerAscii (strip t.toChars))) = some p ↔ t.strip.lower = .ofString p.name := by
    rw [ofName?_eq_some_iff, Text.ofString, Text.lower_eq_ofChars_iff p.plain_name, Text.toChars_strip,
      String.ext_iff, String.toList_ofList]
  rw [← hname, read]
  split <;> simp_all

theorem read_eq_error {t : Text} {e : ConfigError} (h : read t = .error e) : e = .unknownPolicy t := by
  unfold read at h
  split at h
  · cases h
  · cases h
    rfl

end EofPolicy

end Brainfuck
