/-
Bytes in UTF-8, sequence by sequence.

- `Encodes b more c`: the bytes `b :: more` are the sequence of `c`. What `head` reads is one (`encodes_of_head`). An
  ASCII byte is a sequence of its own, and every byte of a longer one lies above ASCII (`Width`).
- `Spells bytes cs`: the bytes are the sequences of the characters. `decode` reads exactly those (`decode_eq_ok_iff`),
  and a front part of the characters is a front part of the bytes (`Spells.split`).
- `Spells.asciiOnly_eq`: the bytes, one character for each, and the characters that they spell have the same ASCII
  characters.
-/
import Mathlib.Tactic
import Brainfuck.Text.Utf8

namespace Brainfuck.Utf8

theorem toNat_ofNat {n : Nat} (h : n.isValidChar) : (Char.ofNat n).toNat = n := by
  rw [Char.ofNat, dif_pos h]
  rfl

theorem toNat_ofByte (b : UInt8) : (Char.ofNat b.toNat).toNat = b.toNat :=
  toNat_ofNat (.inl (Nat.lt_trans b.toNat_lt (by decide)))

/-! ## One sequence -/

/-- an ASCII byte is its own character; of any other character, the number and all bytes lie above ASCII -/
inductive Width (b : UInt8) (more : List UInt8) (c : Char) : Prop where
  | ascii : more = [] → b.toNat < 0x80 → c = Char.ofNat b.toNat → Width b more c
  | wide : 0x80 ≤ c.toNat → (∀ x ∈ b :: more, 0x80 ≤ x.toNat) → Width b more c

/-- the bytes `b` and `more` are the sequence of the character `c`, whatever follows them -/
structure Encodes (b : UInt8) (more : List UInt8) (c : Char) : Prop where
  reads : ∀ rest, head b (more ++ rest) = .ok (c, rest)
  width : Width b more c

/-- a number past ASCII, made of bytes past ASCII -/
theorem width_ofNat {b : UInt8} {more : List UInt8} {n : Nat} (hn : 0x80 ≤ n) (hvalid : n.isValidChar)
    (hbytes : ∀ x ∈ b :: more, 0x80 ≤ x.toNat) : Width b more (Char.ofNat n) :=
  .wide (by rwa [toNat_ofNat hvalid]) hbytes

theorem toNat_of_start {b : UInt8} (h : ¬ (b < 0xC2 || 0xF4 < b) = true) : 0xC2 ≤ b.toNat ∧ b.toNat ≤ 0xF4 := by
  simpa [UInt8.le_iff_toNat_le] using h

theorem toNat_of_isContinuation {b : UInt8} (h : isContinuation b = true) :
    0x80 ≤ b.toNat ∧ low b < 64 ∧ b.toNat = 0x80 + low b := by
  have hrange : 0x80 ≤ b.toNat ∧ b.toNat ≤ 0xBF := by simpa [isContinuation, UInt8.le_iff_toNat_le] using h
  unfold low
  omega

/-- a second byte continues the sequence, and keeps the number in the range that the first byte allows -/
theorem toNat_of_secondAllowed {b x : UInt8} (h : secondAllowed b x = true) :
    (0x80 ≤ x.toNat ∧ low x < 64 ∧ x.toNat = 0x80 + low x) ∧
      (b.toNat = 0xE0 → 0xA0 ≤ x.toNat) ∧ (b.toNat = 0xED → x.toNat ≤ 0x9F) ∧
      (b.toNat = 0xF0 → 0x90 ≤ x.toNat) ∧ (b.toNat = 0xF4 → x.toNat ≤ 0x8F) := by
  obtain ⟨hx, hrange⟩ := Bool.and_eq_true_iff.1 h
  refine ⟨toNat_of_isContinuation hx, ?_⟩
  simp only [beq_iff_eq, UInt8.le_iff_toNat_le, ← UInt8.toNat_inj] at hrange
  split_ifs at hrange <;> simp_all

section Widths

variable {b x y z : UInt8}

theorem encodes_one (h1 : b < 0x80) : Encodes b [] (Char.ofNat b.toNat) where
  reads rest := by simp [head, h1]
  width := .ascii rfl (UInt8.lt_iff_toNat_lt.1 h1) rfl

theorem encodes_two (h1 : ¬ b < 0x80) (h2 : ¬ (b < 0xC2 || 0xF4 < b) = true) (h3 : b < 0xE0)
    (hx : isContinuation x = true) : Encodes b [x] (Char.ofNat ((b.toNat - 0xC0) * 64 + low x)) where
  reads rest := by simp [head, h1, h2, h3, hx]
  width := by
    have hb := toNat_of_start h2
    have hlt : b.toNat < 0xE0 := UInt8.lt_iff_toNat_lt.1 h3
    have hx' := toNat_of_isContinuation hx
    refine width_ofNat (by omega) (.inl (by omega)) ?_
    simp only [List.mem_cons, List.not_mem_nil, or_false, forall_eq_or_imp, forall_eq]
    omega

theorem encodes_three (h1 : ¬ b < 0x80) (h2 : ¬ (b < 0xC2 || 0xF4 < b) = true) (h3 : ¬ b < 0xE0) (h4 : b < 0xF0)
    (hx : secondAllowed b x = true) (hy : isContinuation y = true) :
    Encodes b [x, y] (Char.ofNat (((b.toNat - 0xE0) * 64 + low x) * 64 + low y)) where
  reads rest := by simp [head, h1, h2, h3, h4, hx, hy]
  width := by
    have hge : 0xE0 ≤ b.toNat := UInt8.le_iff_toNat_le.1 (UInt8.not_lt.1 h3)
    have hlt : b.toNat < 0xF0 := UInt8.lt_iff_toNat_lt.1 h4
    obtain ⟨hx', hleast, hsurrogate, -⟩ := toNat_of_secondAllowed hx
    have hy' := toNat_of_isContinuation hy
    refine width_ofNat (by omega) (by unfold Nat.isValidChar; omega) ?_
    simp only [List.mem_cons, List.not_mem_nil, or_false, forall_eq_or_imp, forall_eq]
    omega

theorem encodes_four (h1 : ¬ b < 0x80) (h2 : ¬ (b < 0xC2 || 0xF4 < b) = true) (h3 : ¬ b < 0xE0) (h4 : ¬ b < 0xF0)
    (hx : secondAllowed b x = true) (hy : isContinuation y = true) (hz : isContinuation z = true) :
    Encodes b [x, y, z] (Char.ofNat ((((b.toNat - 0xF0) * 64 + low x) * 64 + low y) * 64 + low z)) where
  reads rest := by simp [head, h1, h2, h3, h4, hx, hy, hz]
  width := by
    have hge : 0xF0 ≤ b.toNat := UInt8.le_iff_toNat_le.1 (UInt8.not_lt.1 h4)
    have hb := toNat_of_start h2
    obtain ⟨hx', -, -, hleast, hgreatest⟩ := toNat_of_secondAllowed hx
    have hy' := toNat_of_isContinuation hy
    have hz' := toNat_of_isContinuation hz
    refine width_ofNat (by omega) (by unfold Nat.isValidChar; omega) ?_
    simp only [List.mem_cons, List.not_mem_nil, or_false, forall_eq_or_imp, forall_eq]
    omega

end Widths

/-- a character that is read at the head has its sequence there -/
theorem encodes_of_head {b : UInt8} {rest rest' : List UInt8} {c : Char} (h : head b rest = .ok (c, rest')) :
    ∃ more, rest = more ++ rest' ∧ Encodes b more c := by
  unfold head at h
  split_ifs at h with h1 h2 h3 h4
  · obtain ⟨rfl, rfl⟩ := Prod.mk.inj (Except.ok.inj h)
    exact ⟨[], rfl, encodes_one h1⟩
  · rcases rest with _ | ⟨x, rest⟩
    · cases h
    · simp only at h
      split_ifs at h with hx
      obtain ⟨rfl, rfl⟩ := Prod.mk.inj (Except.ok.inj h)
      exact ⟨[x], rfl, encodes_two h1 h2 h3 hx⟩
  · rcases rest with _ | ⟨x, _ | ⟨y, rest⟩⟩
    · cases h
    · simp only at h
      split_ifs at h
    · simp only at h
      split_ifs at h with hx hy
      obtain ⟨rfl, rfl⟩ := Prod.mk.inj (Except.ok.inj h)
      exact ⟨[x, y], rfl, encodes_three h1 h2 h3 h4 (by simpa using hx) (by simpa using hy)⟩
  · rcases rest with _ | ⟨x, _ | ⟨y, _ | ⟨z, rest⟩⟩⟩
    · cases h
    · simp only at h
      split_ifs at h
    · simp only at h
      split_ifs at h
    · simp only at h
      split_ifs at h with hx hy hz
      obtain ⟨rfl, rfl⟩ := Prod.mk.inj (Except.ok.inj h)
      exact ⟨[x, y, z], rfl, encodes_four h1 h2 h3 h4 (by simpa using hx) (by simpa using hy) (by simpa using hz)⟩

/-! ## Sequences one after another -/

/-- the bytes are the sequences of the characters -/
inductive Spells : List UInt8 → List Char → Prop where
  | nil : Spells [] []
  | cons {b : UInt8} {more bytes : List UInt8} {c : Char} {cs : List Char} :
      Encodes b more c → Spells bytes cs → Spells (b :: (more ++ bytes)) (c :: cs)

theorem spells_of_decodeFrom {bytes : List UInt8} {offset : Nat} {cs : List Char} {unfinished : List UInt8}
    (h : decodeFrom true offset bytes = .ok (cs, unfinished)) : Spells bytes cs := by
  induction hn : bytes.length using Nat.strong_induction_on generalizing bytes offset cs unfinished with
  | _ n ih =>
    subst hn
    cases bytes with
    | nil =>
      rw [decodeFrom] at h
      obtain ⟨rfl, -⟩ := Prod.mk.inj (Except.ok.inj h)
      exact .nil
    | cons b rest =>
      rw [decodeFrom] at h
      split at h
      · simp at h
      · rename_i c rest' hhead
        split at h
        · cases h
        · rename_i cs' unfinished' hrest
          obtain ⟨rfl, -⟩ := Prod.mk.inj (Except.ok.inj h)
          have hlt : rest'.length < (b :: rest).length := Nat.lt_succ_of_le (length_of_head hhead)
          obtain ⟨more, rfl, hc⟩ := encodes_of_head hhead
          exact .cons hc (ih _ hlt hrest rfl)

theorem Spells.decodeFrom_eq {bytes : List UInt8} {cs : List Char} (h : Spells bytes cs) (offset : Nat) :
    decodeFrom true offset bytes = .ok (cs, []) := by
  induction h generalizing offset with
  | nil => rw [decodeFrom]
  | @cons b more bytes c cs hc _ ih =>
    have hhead := hc.reads bytes
    rw [decodeFrom]
    split
    · rename_i hfail
      rw [hhead] at hfail
      cases hfail
    · rename_i c' rest' hread
      rw [hhead] at hread
      obtain ⟨rfl, rfl⟩ := Prod.mk.inj (Except.ok.inj hread)
      rw [ih]

/-- decoding reads the sequences, and nothing else -/
theorem decode_eq_ok_iff {bytes : List UInt8} {cs : List Char} : decode bytes = .ok cs ↔ Spells bytes cs := by
  constructor
  · intro h
    unfold decode at h
    cases hfrom : decodeFrom true 0 bytes with
    | error e =>
      rw [hfrom] at h
      cases h
    | ok r =>
      rw [hfrom] at h
      cases h
      exact spells_of_decodeFrom hfrom
  · intro h
    rw [decode, h.decodeFrom_eq]
    rfl

/-- a front part of the characters is spelled by a front part of the bytes -/
theorem Spells.split {bytes : List UInt8} {front back : List Char} (h : Spells bytes (front ++ back)) :
    ∃ x y, bytes = x ++ y ∧ Spells x front ∧ Spells y back := by
  induction front generalizing bytes with
  | nil => exact ⟨[], bytes, rfl, .nil, h⟩
  | cons c front ih =>
    cases h with
    | @cons b more bytes _ _ hc hrest =>
      obtain ⟨x, y, rfl, hx, hy⟩ := ih hrest
      exact ⟨b :: (more ++ x), y, by simp, .cons hc hx, hy⟩

/-! ## ASCII -/

/-- the ASCII characters of a text -/
def asciiOnly (cs : List Char) : List Char := cs.filter fun c => c.toNat < 0x80

theorem asciiOnly_append (a b : List Char) : asciiOnly (a ++ b) = asciiOnly a ++ asciiOnly b := List.filter_append ..

theorem oneCharPerByte_append (a b : List UInt8) :
    oneCharPerByte (a ++ b) = oneCharPerByte a ++ oneCharPerByte b := List.map_append

theorem asciiOnly_of_wide {bytes : List UInt8} (h : ∀ x ∈ bytes, 0x80 ≤ x.toNat) :
    asciiOnly (oneCharPerByte bytes) = [] := by
  refine List.filter_eq_nil_iff.2 fun c hc => ?_
  obtain ⟨x, hx, rfl⟩ := List.mem_map.1 hc
  rw [toNat_ofByte]
  simpa using h x hx

/-- the bytes and the characters that they spell have the same ASCII characters -/
theorem Spells.asciiOnly_eq {bytes : List UInt8} {cs : List Char} (h : Spells bytes cs) :
    asciiOnly (oneCharPerByte bytes) = asciiOnly cs := by
  induction h with
  | nil => rfl
  | @cons b more bytes c cs hc _ ih =>
    rw [← List.cons_append, oneCharPerByte_append, asciiOnly_append, ih, ← List.singleton_append (x := c),
      asciiOnly_append]
    congr 1
    cases hc.width with
    | ascii hmore _ hchar =>
      rw [hmore, hchar]
      rfl
    | wide hchar hbytes =>
      rw [asciiOnly_of_wide hbytes]
      simpa [asciiOnly] using hchar

/-- an ASCII character is spelled by one byte -/
theorem Spells.exists_of_ascii {bytes : List UInt8} {c : Char} {cs : List Char} (hc : c.toNat < 0x80)
    (h : Spells bytes (c :: cs)) :
    ∃ rest, oneCharPerByte bytes = c :: oneCharPerByte rest ∧ Spells rest cs := by
  cases h with
  | @cons b more bytes _ _ hchar hrest =>
    cases hchar.width with
    | ascii hmore _ hc' =>
      refine ⟨bytes, ?_, hrest⟩
      rw [hmore, hc']
      rfl
    | wide hwide _ => exact absurd hwide (Nat.not_le_of_lt hc)

end Brainfuck.Utf8
