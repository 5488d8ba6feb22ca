/-
A tape is a store of bytes that can grow.

Cells are got and set by signed indices. A negative one counts from the end of the tape, so it names another cell once
the tape has grown, and an index that names no cell is refused. The memory for the cells is taken for granted.

- `Tape.Names n i k`: on a tape of `n` cells, the index `i` names the cell `k`. It is the cell that `Tape.index?` finds.
- `Tape.Use`: what a tape can be asked, with any integers; `Tape.use` is the answer with the tape that is left, and
  `Tape.afterUses` the tape after one use after another.
- `Tape.Refused n u e`: a tape of `n` cells refuses the use `u` with the error `e` (`use_eq_error_iff`).
- `Tape.Wrote t us j k b`: of the uses `us` of `t`, the one in place `j` is a set that succeeds, and puts the byte `b`
  into the cell `k`. One use keeps that each cell holds what was put there last (`read_use`), so any number of uses does
  (`Tape.lastPut_afterUses`).
- `tape_stores_bytes`: the whole account, for all uses of a new tape.
-/
import Mathlib.Tactic
import Brainfuck.Tape

namespace Brainfuck

/-- the error is about the index; the others say that a number is too large -/
def TapeError.isIndexError : TapeError → Bool
  | .outOfBounds _ _ | .noIndex => true
  | .notByte _ | .tooLarge => false

namespace Tape

/-! ## Indices -/

/-- on a tape of `n` cells, the index `i` names the cell `k`, counted from the front or from the end -/
structure Names (n : Nat) (i : Int) (k : Nat) : Prop where
  lt : k < n
  counted : (k : Int) = i ∨ (k : Int) = i + n

/-- the index is none of those from `-n` to `n - 1` -/
def Outside (n : Nat) (i : Int) : Prop := i < -n ∨ n ≤ i

variable {t : Tape} {n k : Nat} {i v : Int} {b : UInt8} {e : TapeError}

theorem outside_iff_not_names : Outside n i ↔ ∀ k, ¬ Names n i k := by
  constructor
  · rintro houtside k ⟨hlt, hcounted⟩
    unfold Outside at houtside
    omega
  · intro hnone
    by_contra hinside
    unfold Outside at hinside
    rcases Int.lt_or_le i 0 with hneg | hpos
    · exact hnone (i + n).toNat ⟨by omega, .inr (by omega)⟩
    · exact hnone i.toNat ⟨by omega, .inl (by omega)⟩

/-- an index names one cell at most -/
theorem Names.unique {k' : Nat} (h : Names n i k) (h' : Names n i k') : k = k' := by
  obtain ⟨hlt, hcounted⟩ := h
  obtain ⟨hlt', hcounted'⟩ := h'
  omega

theorem index?_of_names (h : Names t.length i k) : t.index? i = some k := by
  obtain ⟨hlt, hcounted⟩ := h
  unfold index?
  rcases hcounted with rfl | hend
  · rw [if_pos (by omega), Int.toNat_natCast]
  · rw [if_neg (by omega), if_pos (by omega), ← hend, Int.toNat_natCast]

theorem index?_of_outside (h : Outside t.length i) : t.index? i = none := by
  unfold Outside at h
  unfold index?
  rw [if_neg (by omega), if_neg (by omega)]

/-- an index names a cell, or it is outside -/
theorem names_or_outside (n : Nat) (i : Int) : (∃ k, Names n i k) ∨ Outside n i := by
  rw [outside_iff_not_names, ← not_exists]
  exact Classical.em _

/-! ## Errors -/

/-- what is wrong with an index that is outside -/
inductive WrongIndex (n : Nat) (i : Int) : TapeError → Prop where
  | outOfBounds : -2 ^ 63 ≤ i → i < 2 ^ 63 → WrongIndex n i (.outOfBounds i n)
  | tooLarge : 2 ^ 63 ≤ i → i < 2 ^ 64 → WrongIndex n i .tooLarge
  | noIndex : i < -2 ^ 63 ∨ 2 ^ 64 ≤ i → WrongIndex n i .noIndex

/-- what is wrong with a value that is no byte -/
inductive WrongValue (v : Int) : TapeError → Prop where
  | notByte : -2 ^ 63 ≤ v → v < 2 ^ 63 → WrongValue v (.notByte v)
  | tooLarge : v < -2 ^ 63 ∨ 2 ^ 63 ≤ v → WrongValue v .tooLarge

theorem fitsWord_long : fitsWord 64 v = true ↔ -2 ^ 63 ≤ v ∧ v < 2 ^ 63 := fitsWord_iff

theorem exists_wrongIndex (n : Nat) (i : Int) : ∃ e, WrongIndex n i e := by
  by_cases hwide : i < -2 ^ 63 ∨ 2 ^ 64 ≤ i
  · exact ⟨_, .noIndex hwide⟩
  · by_cases hhigh : i < 2 ^ 63
    · exact ⟨_, .outOfBounds (by omega) hhigh⟩
    · exact ⟨_, .tooLarge (by omega) (by omega)⟩

theorem wrongIndex_of (h : WrongIndex t.length i e) : t.wrongIndex i = e := by
  unfold wrongIndex
  cases h with
  | outOfBounds hlow hhigh => rw [if_pos (fitsWord_long.2 ⟨hlow, hhigh⟩)]
  | tooLarge hlow hhigh =>
    rw [if_neg (mt fitsWord_long.1 (by omega)), if_pos]
    simp only [Bool.and_eq_true, decide_eq_true_eq]
    omega
  | noIndex hwide =>
    rw [if_neg (mt fitsWord_long.1 (by omega)), if_neg]
    simp only [Bool.and_eq_true, decide_eq_true_eq]
    omega

theorem wrongValue_eq_iff : wrongValue v = e ↔ WrongValue v e := by
  unfold wrongValue
  constructor
  · rintro rfl
    split
    · next hfits =>
      obtain ⟨hlow, hhigh⟩ := fitsWord_long.1 hfits
      exact .notByte hlow hhigh
    · next hfits =>
      rw [fitsWord_long] at hfits
      exact .tooLarge (by omega)
  · intro h
    cases h with
    | notByte hlow hhigh => rw [if_pos (fitsWord_long.2 ⟨hlow, hhigh⟩)]
    | tooLarge hwide => rw [if_neg (mt fitsWord_long.1 (by omega))]

/-! ## Uses -/

/-- what a tape can be asked -/
inductive Use where
  | get (i : Int)
  | set (i v : Int)
  | grow (minLength : Int)
deriving DecidableEq, Repr

/-- the index that is looked at -/
def Use.index? : Use → Option Int
  | .get i | .set i _ => some i
  | .grow _ => none

/-- the answer, which holds a byte if one was asked for, and the tape that is left -/
def use (t : Tape) : Use → Except TapeError (Option UInt8) × Tape
  | .get i => ((t.get? i).map some, t)
  | .set i v =>
    match t.set? i v with
    | .ok t' => (.ok none, t')
    | .error e => (.error e, t)
  | .grow minLength => (.ok none, t.grow minLength)

/-- the tape after some uses, refused ones among them -/
def afterUses (t : Tape) (us : List Use) : Tape := us.foldl (fun t u => (t.use u).2) t

/-- why a tape of `n` cells refuses a use: its index is looked at first, and then the value to be set -/
inductive Refused (n : Nat) : Use → TapeError → Prop where
  | index {u : Use} {i : Int} {e : TapeError} : u.index? = some i → Outside n i → WrongIndex n i e → Refused n u e
  | value {i v : Int} {e : TapeError} : ¬ Outside n i → v < 0 ∨ 255 < v → WrongValue v e → Refused n (.set i v) e

/-- what a use of `t` comes to: an answer, and the tape that is left -/
inductive Answers (t : Tape) : Use → Except TapeError (Option UInt8) × Tape → Prop where
  | get {i : Int} {k : Nat} : Names t.length i k → Answers t (.get i) (.ok (some (t.read k)), t)
  | set {i : Int} {k : Nat} {b : UInt8} : Names t.length i k → Answers t (.set i b.toNat) (.ok none, t.write k b)
  | grow {m : Int} : Answers t (.grow m) (.ok none, t.grow m)
  | refused {u : Use} {e : TapeError} : Refused t.length u e → Answers t u (.error e, t)

/-- a value is a byte, or it is none -/
theorem exists_byte_or (v : Int) : (∃ b : UInt8, v = b.toNat) ∨ v < 0 ∨ 255 < v := by
  by_cases h : v < 0 ∨ 255 < v
  · exact .inr h
  · refine .inl ⟨UInt8.ofNat v.toNat, ?_⟩
    have hlt : v.toNat < 2 ^ 8 := by omega
    rw [UInt8.toNat_ofNat_of_lt' hlt]
    omega

theorem use_get_of_names (h : Names t.length i k) : t.use (.get i) = (.ok (some (t.read k)), t) := by
  simp only [use, get?, index?_of_names h, Except.map]

theorem use_set_of_names (h : Names t.length i k) (b : UInt8) :
    t.use (.set i b.toNat) = (.ok none, t.write k b) := by
  have hb : 0 ≤ (b.toNat : Int) ∧ (b.toNat : Int) ≤ 255 := by have := b.toNat_lt; omega
  simp only [use, set?, index?_of_names h, if_pos hb, Int.toNat_natCast, UInt8.ofNat_toNat]

theorem use_of_refused {u : Use} (h : Refused t.length u e) : t.use u = (.error e, t) := by
  cases h with
  | index hu houtside hwrong =>
    have hnone := index?_of_outside houtside
    have he := wrongIndex_of hwrong
    cases u with
    | get j =>
      obtain rfl := Option.some.inj hu
      simp only [use, get?, hnone, he, Except.map]
    | set j v =>
      obtain rfl := Option.some.inj hu
      simp only [use, set?, hnone, he]
    | grow m => cases hu
  | @value i v _ hinside hv hwrong =>
    obtain ⟨k, hk⟩ := (names_or_outside ..).resolve_right hinside
    have hv' : ¬ (0 ≤ v ∧ v ≤ 255) := by omega
    simp only [use, set?, index?_of_names hk, if_neg hv', wrongValue_eq_iff.2 hwrong]

theorem answers_use (t : Tape) (u : Use) : Answers t u (t.use u) := by
  have houtside : ∀ i, u.index? = some i → Outside t.length i → Answers t u (t.use u) := by
    intro i hu hi
    obtain ⟨e, he⟩ := exists_wrongIndex t.length i
    have hrefused : Refused t.length u e := .index hu hi he
    rw [use_of_refused hrefused]
    exact .refused hrefused
  cases u with
  | get i =>
    rcases names_or_outside t.length i with ⟨k, hk⟩ | hi
    · rw [use_get_of_names hk]
      exact .get hk
    · exact houtside i rfl hi
  | set i v =>
    rcases names_or_outside t.length i with ⟨k, hk⟩ | hi
    · rcases exists_byte_or v with ⟨b, rfl⟩ | hv
      · rw [use_set_of_names hk]
        exact .set hk
      · have hrefused : Refused t.length (.set i v) (wrongValue v) :=
          .value (fun hi => outside_iff_not_names.1 hi k hk) hv (wrongValue_eq_iff.1 rfl)
        rw [use_of_refused hrefused]
        exact .refused hrefused
    · exact houtside i rfl hi
  | grow m => exact .grow

/-- a use is refused exactly for the stated reasons -/
theorem use_eq_error_iff {u : Use} : (t.use u).1 = .error e ↔ Refused t.length u e := by
  constructor
  · intro herror
    have h := t.answers_use u
    generalize t.use u = r at h herror
    cases h with
    | refused hrefused =>
      obtain rfl := Except.error.inj herror
      exact hrefused
    | get | set | grow => cases herror
  · intro h
    rw [use_of_refused h]

/-- a use that is refused changes nothing -/
theorem use_of_error {u : Use} (h : (t.use u).1 = .error e) : (t.use u).2 = t := by
  rw [use_of_refused (use_eq_error_iff.1 h)]

theorem WrongIndex.isIndexError_iff (h : WrongIndex n i e) :
    e.isIndexError = true ↔ ¬ (2 ^ 63 ≤ i ∧ i < 2 ^ 64) := by
  cases h with
  | outOfBounds hlow hhigh => exact iff_of_true rfl (by omega)
  | tooLarge hlow hhigh => exact iff_of_false (by decide) (by omega)
  | noIndex hwide => exact iff_of_true rfl (by omega)

theorem WrongValue.isIndexError (h : WrongValue v e) : e.isIndexError = false := by
  cases h <;> rfl

/-- the errors of the index come from an index that is outside, unless only a word without a sign can hold it -/
theorem exists_indexError_iff {u : Use} (hu : u.index? = some i) :
    (∃ e, (t.use u).1 = .error e ∧ e.isIndexError = true) ↔
      Outside t.length i ∧ ¬ (2 ^ 63 ≤ i ∧ i < 2 ^ 64) := by
  constructor
  · rintro ⟨e, herror, hkind⟩
    cases use_eq_error_iff.1 herror with
    | index hu' houtside hwrong =>
      obtain rfl := Option.some.inj (hu.symm.trans hu')
      exact ⟨houtside, hwrong.isIndexError_iff.1 hkind⟩
    | value _ _ hwrong =>
      rw [hwrong.isIndexError] at hkind
      cases hkind
  · rintro ⟨houtside, hsigned⟩
    obtain ⟨e, he⟩ := exists_wrongIndex t.length i
    exact ⟨e, use_eq_error_iff.2 (.index hu houtside he), he.isIndexError_iff.2 hsigned⟩

/-- the other errors come from such an index, or from a value that is no byte at an index that names a cell -/
theorem exists_sizeError_iff {u : Use} (hu : u.index? = some i) :
    (∃ e, (t.use u).1 = .error e ∧ e.isIndexError = false) ↔
      Outside t.length i ∧ 2 ^ 63 ≤ i ∧ i < 2 ^ 64 ∨
        ¬ Outside t.length i ∧ ∃ v, u = .set i v ∧ (v < 0 ∨ 255 < v) := by
  constructor
  · rintro ⟨e, herror, hkind⟩
    cases use_eq_error_iff.1 herror with
    | index hu' houtside hwrong =>
      obtain rfl := Option.some.inj (hu.symm.trans hu')
      refine .inl ⟨houtside, ?_⟩
      by_contra hsigned
      rw [hwrong.isIndexError_iff.2 hsigned] at hkind
      cases hkind
    | @value j v _ hinside hv _ =>
      obtain rfl : j = i := Option.some.inj hu
      exact .inr ⟨hinside, v, rfl, hv⟩
  · rintro (⟨houtside, hsize⟩ | ⟨hinside, v, rfl, hv⟩)
    · exact ⟨_, use_eq_error_iff.2 (.index hu houtside (.tooLarge hsize.1 hsize.2)), rfl⟩
    · have hwrong : WrongValue v (wrongValue v) := wrongValue_eq_iff.1 rfl
      exact ⟨_, use_eq_error_iff.2 (.value hinside hv hwrong), hwrong.isIndexError⟩

/-! ## Lengths -/

theorem length_le_use (t : Tape) (u : Use) : t.length ≤ (t.use u).2.length := by
  have h := t.answers_use u
  generalize t.use u = r at h
  cases h with
  | get | refused => exact Nat.le_refl _
  | set => exact Nat.le_of_eq (length_write ..).symm
  | grow => exact (le_length_grow t _).2

theorem growthChunk_use (t : Tape) (u : Use) : (t.use u).2.growthChunk = t.growthChunk := by
  have h := t.answers_use u
  generalize t.use u = r at h
  cases h with
  | get | refused => rfl
  | set => exact growthChunk_write ..
  | grow => exact growthChunk_grow t _

theorem afterUses_concat (t : Tape) (us : List Use) (u : Use) :
    t.afterUses (us ++ [u]) = ((t.afterUses us).use u).2 := by
  simp [afterUses]

theorem length_le_afterUses (t : Tape) (us : List Use) : t.length ≤ (t.afterUses us).length := by
  induction us using List.reverseRecOn with
  | nil => exact Nat.le_refl _
  | append_singleton us u ih =>
    rw [afterUses_concat]
    exact Nat.le_trans ih (length_le_use _ u)

theorem growthChunk_afterUses (t : Tape) (us : List Use) : (t.afterUses us).growthChunk = t.growthChunk := by
  induction us using List.reverseRecOn with
  | nil => rfl
  | append_singleton us u ih => rw [afterUses_concat, growthChunk_use, ih]

/-! ## What a cell holds -/

/-- the use is a set of `t` that succeeds, and puts the byte `b` into the cell `k` -/
def Puts (t : Tape) (u : Use) (k : Nat) (b : UInt8) : Prop :=
  ∃ i, u = .set i b.toNat ∧ (t.use u).1 = .ok none ∧ Names t.length i k

/-- of the uses `us` of `t`, the one in place `j` puts the byte `b` into the cell `k` -/
def Wrote (t : Tape) (us : List Use) (j k : Nat) (b : UInt8) : Prop :=
  ∃ u, us[j]? = some u ∧ (t.afterUses (us.take j)).Puts u k b

/-- what the last of the uses `us` of `t` that puts something into the cell `k` has put there; without one, what was
there before -/
inductive LastPut (t : Tape) (us : List Use) (k : Nat) : UInt8 → Prop where
  | last {j : Nat} {b : UInt8} : Wrote t us j k b → (∀ l c, j < l → ¬ Wrote t us l k c) → LastPut t us k b
  | never : (∀ j b, ¬ Wrote t us j k b) → LastPut t us k (t.read k)

/-- a use puts something into a cell, or leaves it as it is -/
theorem read_use (t : Tape) (u : Use) (k : Nat) :
    (∃ b, t.Puts u k b ∧ (t.use u).2.read k = b) ∨ ((∀ b, ¬ t.Puts u k b) ∧ (t.use u).2.read k = t.read k) := by
  have h := t.answers_use u
  generalize hr : t.use u = r at h
  cases h with
  | get =>
    refine .inr ⟨?_, rfl⟩
    rintro b ⟨i, hi, -⟩
    cases hi
  | @set i k' b hk' =>
    by_cases hkk : k' = k
    · subst hkk
      exact .inl ⟨b, ⟨i, rfl, by rw [hr], hk'⟩, read_write_self b hk'.lt⟩
    · refine .inr ⟨?_, read_write_of_ne b hkk⟩
      rintro c ⟨j, hj, -, hk⟩
      obtain ⟨rfl, -⟩ := Use.set.inj hj
      exact hkk (hk'.unique hk)
  | grow =>
    refine .inr ⟨?_, read_grow t _ k⟩
    rintro b ⟨i, hi, -⟩
    cases hi
  | refused =>
    refine .inr ⟨?_, rfl⟩
    rintro b ⟨i, -, hanswer, -⟩
    rw [hr] at hanswer
    cases hanswer

theorem wrote_concat_iff {us : List Use} {u : Use} {j : Nat} :
    Wrote t (us ++ [u]) j k b ↔ Wrote t us j k b ∨ j = us.length ∧ (t.afterUses us).Puts u k b := by
  rcases Nat.lt_trichotomy j us.length with hlt | rfl | hgt
  · have hne : j ≠ us.length := Nat.ne_of_lt hlt
    simp [Wrote, hne, List.getElem?_append_left hlt, List.take_append_of_le_length (Nat.le_of_lt hlt)]
  · simp [Wrote]
  · have hnone : ¬ j < us.length + 1 := by omega
    simp [Wrote, Nat.ne_of_gt hgt, Nat.le_of_lt hgt, hgt]

/-- each cell holds what was put there last -/
theorem lastPut_afterUses (t : Tape) (us : List Use) (k : Nat) : LastPut t us k ((t.afterUses us).read k) := by
  induction us using List.reverseRecOn with
  | nil =>
    refine .never ?_
    rintro j b ⟨u, hu, -⟩
    cases hu
  | append_singleton us u ih =>
    -- the place of a use comes before that of the next one
    have hlt : ∀ j b, Wrote t us j k b → j < us.length := by
      rintro j b ⟨u, hu, -⟩
      exact (List.getElem?_eq_some_iff.1 hu).1
    rw [afterUses_concat]
    rcases (t.afterUses us).read_use u k with ⟨b, hputs, hread⟩ | ⟨hnone, hread⟩
    · rw [hread]
      refine .last (wrote_concat_iff.2 (.inr ⟨rfl, hputs⟩)) ?_
      intro l c hl hwrote
      rcases wrote_concat_iff.1 hwrote with hwrote | ⟨rfl, -⟩
      · exact Nat.lt_asymm hl (hlt l c hwrote)
      · exact Nat.lt_irrefl _ hl
    · rw [hread]
      have hsame : ∀ j b, Wrote t (us ++ [u]) j k b ↔ Wrote t us j k b := by
        intro j b
        rw [wrote_concat_iff]
        exact or_iff_left fun h => hnone b h.2
      generalize (t.afterUses us).read k = b at ih
      cases ih with
      | last hwrote hlater => exact .last ((hsame _ _).2 hwrote) fun l c hl h => hlater l c hl ((hsame l c).1 h)
      | never hno => exact .never fun j b h => hno j b ((hsame j b).1 h)

end Tape

open Tape in
/-- **A tape is a store of bytes that can grow.** After any uses of a new tape, refused ones among them: no use makes
the tape shorter. It can be grown to any length for which there is memory (that there is enough is assumed, of the first
cells as well), by the chunk or by what is missing, and keeps its cells. A use that is
refused changes nothing. The error is one of the index exactly if the index is outside and not so large that only a word
without a sign can hold it; such an index, and a value that is no byte at an index that names a cell, are too large. A
cell that an index names holds the byte that the last successful set of this cell has put there, whichever index named
it then, and zero if there was none. -/
theorem tape_stores_bytes (length : Nat) (growable : Bool) (chunk : Int) (us : List Use) :
    let t₀ := zeros length growable chunk
    let t := t₀.afterUses us
    (∀ more, t.length ≤ (t.afterUses more).length) ∧
    (∀ m,
      let grown := (t.use (.grow m)).2
      m ≤ grown.length ∧
      (grown.length : Int) = (if m ≤ t.length then (t.length : Int) else t.length + max chunk (m - t.length)) ∧
      ∀ k : Nat, k < t.length → (grown.use (.get k)).1 = (t.use (.get k)).1) ∧
    (∀ u e, (t.use u).1 = .error e → (t.use u).2 = t) ∧
    (∀ u e, (t.use u).1 = .error e ↔ Refused t.length u e) ∧
    (∀ u i, u.index? = some i →
      ((∃ e, (t.use u).1 = .error e ∧ e.isIndexError = true) ↔
        Outside t.length i ∧ ¬ (2 ^ 63 ≤ i ∧ i < 2 ^ 64)) ∧
      ((∃ e, (t.use u).1 = .error e ∧ e.isIndexError = false) ↔
        Outside t.length i ∧ 2 ^ 63 ≤ i ∧ i < 2 ^ 64 ∨
          ¬ Outside t.length i ∧ ∃ v, u = .set i v ∧ (v < 0 ∨ 255 < v))) ∧
    ∀ i k, Names t.length i k → ∃ b : UInt8, (t.use (.get i)).1 = .ok (some b) ∧ b.toNat ≤ 255 ∧
      ((∃ j, Wrote t₀ us j k b ∧ ∀ l c, j < l → ¬ Wrote t₀ us l k c) ∨ (∀ j c, ¬ Wrote t₀ us j k c) ∧ b = 0) := by
  intro t₀ t
  have hchunk : t.growthChunk = chunk := growthChunk_afterUses t₀ us
  refine ⟨length_le_afterUses t, fun m => ⟨(le_length_grow t m).1, ?_, fun k hk => ?_⟩, fun u e => use_of_error,
    fun u e => use_eq_error_iff, fun u i hu => ⟨exists_indexError_iff hu, exists_sizeError_iff hu⟩, fun i k hk => ?_⟩
  · have hlength := length_grow t m
    rwa [hchunk] at hlength
  · have hnames : Names t.length k k := ⟨hk, .inl rfl⟩
    have hnames' : Names (t.grow m).length k k := ⟨Nat.lt_of_lt_of_le hk (le_length_grow t m).2, .inl rfl⟩
    have hgrown : (t.use (.grow m)).2 = t.grow m := rfl
    rw [hgrown, use_get_of_names hnames, use_get_of_names hnames', read_grow]
  · refine ⟨t.read k, by rw [use_get_of_names hk], Nat.le_of_lt_succ (t.read k).toNat_lt, ?_⟩
    have hput : LastPut t₀ us k (t.read k) := lastPut_afterUses t₀ us k
    generalize t.read k = b at hput
    cases hput with
    | last hwrote hlater => exact .inl ⟨_, hwrote, hlater⟩
    | never hnone => exact .inr ⟨hnone, read_zeros ..⟩

/-- a tape of two cells that is grown by a chunk of three: the last cell is another one then, and the cell that was the
last one keeps its byte -/
theorem tape_stores_bytes_last_cell :
    let t₀ := Tape.zeros 2 false 3
    let us : List Tape.Use := [.set (-1) 7, .set 2 9, .grow 3, .set (-1) 8, .set (-5) 300]
    let t := t₀.afterUses us
    t.length = 5 ∧ Tape.Names t.length (-4) 1 ∧ (t.use (.get (-4))).1 = .ok (some 7) ∧
      (∃ j, Tape.Wrote t₀ us j 1 7 ∧ ∀ l c, j < l → ¬ Tape.Wrote t₀ us l 1 c) ∧
      (t.use (.set 5 1)).1 = .error (.outOfBounds 5 5) ∧ (t.use (.set 5 1)).2 = t ∧ Tape.Outside t.length 5 := by
  intro t₀ us t
  have hnames : Tape.Names t.length (-4) 1 := ⟨by decide, .inr (by decide)⟩
  have hget : (t.use (.get (-4))).1 = .ok (some 7) := by decide
  have hset : (t.use (.set 5 1)).1 = .error (.outOfBounds 5 5) := by decide
  obtain ⟨-, -, hkeep, -, hkinds, hcells⟩ := tape_stores_bytes 2 false 3 us
  obtain ⟨b, hb, -, hput⟩ := hcells (-4) 1 hnames
  obtain rfl : b = 7 := Option.some.inj (Except.ok.inj (hb.symm.trans hget))
  have houtside := ((hkinds (.set 5 1) 5 rfl).1.1 ⟨_, hset, rfl⟩).1
  exact ⟨by decide, hnames, hget, hput.resolve_right fun h => absurd h.2 (by decide), hset, hkeep _ _ hset, houtside⟩

/-- an index that only a word without a sign can hold is outside, but the error is not one of the index -/
theorem unsigned_index_is_too_large :
    let t := Tape.zeros 1 true 1024
    t.use (.get (2 ^ 63)) = (.error .tooLarge, t) ∧ Tape.Outside t.length (2 ^ 63) ∧
      ¬ ∃ e, (t.use (.get (2 ^ 63))).1 = .error e ∧ e.isIndexError = true := by
  intro t
  have hanswer : t.use (.get (2 ^ 63)) = (.error .tooLarge, t) := rfl
  refine ⟨hanswer, .inr (by decide), ?_⟩
  rintro ⟨e, herror, hkind⟩
  rw [hanswer] at herror
  obtain rfl := Except.error.inj herror
  cases hkind

end Brainfuck
