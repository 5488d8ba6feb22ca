/-
Which keys of a JSON document can be put in order.

- `Value.kind?`: keys are null, numbers (truth values among them) or texts. `Value.lt_eq_ok_iff`: two keys can be
  compared if they are of one kind, and null cannot even be compared with itself.
- `Value.exists_sorted`, `Value.kind?_eq_of_sorted`: two keys or more are sorted if all are of one kind and none is
  null.
- `Config.sorted_unknown_eq_ok_iff`: the keys that name no option are sorted if no two of them are of different kinds.
  Of the keys that are the same only one is kept, so null comes once.
-/
import Brainfuck.Proofs.JsonValues
import Brainfuck.Proofs.Overlays

namespace Brainfuck

namespace Value

/-- the kinds of keys -/
inductive Kind where
  | null
  | number
  | text
deriving DecidableEq, Repr

/-- the kind of a key; what is a container is none -/
def kind? : Value → Option Kind
  | null => some .null
  | bool _ | int _ | float _ => some .number
  | text _ => some .text
  | _ => none

theorem isSome_place? {a : Value} (h : a.kind? = some .number) : a.place?.isSome = true := by
  cases a with
  | bool b => rfl
  | int n => rfl
  | float x =>
    rw [place?]
    split <;> rfl
  | _ => simp [kind?] at h

theorem exists_lt_of_numbers {a b : Value} (ha : a.kind? = some .number) (hb : b.kind? = some .number) :
    ∃ r, a.lt b = .ok r := by
  obtain ⟨x, hx⟩ := Option.isSome_iff_exists.1 (isSome_place? ha)
  obtain ⟨y, hy⟩ := Option.isSome_iff_exists.1 (isSome_place? hb)
  cases a <;> simp only [kind?, Option.some.injEq, reduceCtorEq] at ha
  all_goals cases b <;> simp only [kind?, Option.some.injEq, reduceCtorEq] at hb
  all_goals
    simp only [lt, hx, hy]
    cases x <;> cases y <;> exact ⟨_, rfl⟩

theorem lt_eq_ok_iff {a b : Value} {k l : Kind} (ha : a.kind? = some k) (hb : b.kind? = some l) :
    (∃ r, a.lt b = .ok r) ↔ k = l ∧ k ≠ .null := by
  constructor
  · rintro ⟨r, h⟩
    cases a <;> cases ha
    all_goals cases b <;> cases hb
    all_goals first | exact ⟨rfl, by decide⟩ | simp [lt, place?, number?] at h
  · rintro ⟨rfl, hk⟩
    cases k with
    | null => exact absurd rfl hk
    | number => exact exists_lt_of_numbers ha hb
    | text =>
      cases a <;> cases ha
      cases b <;> cases hb
      exact ⟨_, rfl⟩

theorem kind?_of_sameKey {a b : Value} (h : a.sameKey b = true) {k : Kind} (hb : b.kind? = some k) :
    a.kind? = some k := by
  cases b <;> cases hb
  all_goals cases a
  all_goals first | rfl | simp [sameKey, number?] at h

/-! ## Sorting -/

theorem insertSorted_perm {a : Value} {l s : List Value} (h : insertSorted a l = .ok s) : s.Perm (a :: l) := by
  induction l generalizing s with
  | nil =>
    cases h
    exact .refl _
  | cons b rest ih =>
    obtain ⟨before, -, h⟩ := bind_eq_ok_iff.1 h
    split at h
    · obtain ⟨t, ht, h⟩ := bind_eq_ok_iff.1 h
      cases h
      exact ((ih ht).cons b).trans (.swap a b rest)
    · cases h
      exact .refl _

theorem sorted_perm {l s : List Value} (h : sorted l = .ok s) : s.Perm l := by
  induction l generalizing s with
  | nil =>
    cases h
    exact .refl _
  | cons a rest ih =>
    obtain ⟨t, ht, h⟩ := bind_eq_ok_iff.1 h
    exact (insertSorted_perm h).trans ((ih ht).cons a)

theorem exists_insertSorted {a : Value} {l : List Value} (h : ∀ b ∈ l, ∃ r, b.lt a = .ok r) :
    ∃ s, insertSorted a l = .ok s := by
  induction l with
  | nil => exact ⟨_, rfl⟩
  | cons b rest ih =>
    obtain ⟨⟨r, hr⟩, hrest⟩ := List.forall_mem_cons.1 h
    obtain ⟨s, hs⟩ := ih hrest
    rw [insertSorted, hr, hs]
    cases r
    · exact ⟨_, rfl⟩
    · exact ⟨_, rfl⟩

/-- keys of one kind are sorted -/
theorem exists_sorted {l : List Value} {k : Kind} (hnull : k ≠ .null) (h : ∀ a ∈ l, a.kind? = some k) :
    ∃ s, sorted l = .ok s := by
  induction l with
  | nil => exact ⟨_, rfl⟩
  | cons a rest ih =>
    obtain ⟨ha, hrest⟩ := List.forall_mem_cons.1 h
    obtain ⟨t, ht⟩ := ih hrest
    have hcompared : ∀ b ∈ t, ∃ r, b.lt a = .ok r := by
      intro b hb
      exact (lt_eq_ok_iff (hrest b ((sorted_perm ht).subset hb)) ha).2 ⟨rfl, hnull⟩
    obtain ⟨s, hs⟩ := exists_insertSorted hcompared
    rw [sorted, ht]
    exact ⟨s, hs⟩

/-- two keys or more that are sorted are of one kind -/
theorem kind?_eq_of_sorted {l s : List Value} (hkeys : ∀ a ∈ l, a.kind?.isSome = true) (h : sorted l = .ok s)
    (hlength : 1 < l.length) : ∃ k, k ≠ .null ∧ ∀ a ∈ l, a.kind? = some k := by
  induction l generalizing s with
  | nil => simp at hlength
  | cons a rest ih =>
    obtain ⟨ha, hrest⟩ := List.forall_mem_cons.1 hkeys
    obtain ⟨k, hk⟩ := Option.isSome_iff_exists.1 ha
    obtain ⟨t, ht, h⟩ := bind_eq_ok_iff.1 h
    have hperm := sorted_perm ht
    cases t with
    | nil => simp [hperm.nil_eq.symm] at hlength
    | cons b t =>
      -- `a` has been compared with the least of the others, and the others are of one kind by themselves
      obtain ⟨before, hbefore, -⟩ := bind_eq_ok_iff.1 h
      have hb : b ∈ rest := hperm.subset List.mem_cons_self
      obtain ⟨l, hl⟩ := Option.isSome_iff_exists.1 (hrest b hb)
      obtain ⟨rfl, hnull⟩ := (lt_eq_ok_iff hl hk).1 ⟨before, hbefore⟩
      refine ⟨l, hnull, List.forall_mem_cons.2 ⟨hk, fun c hc => ?_⟩⟩
      by_cases hmany : 1 < rest.length
      · obtain ⟨m, -, hall⟩ := ih hrest ht hmany
        rw [hall c hc, ← hall b hb, hl]
      · obtain ⟨d, rfl⟩ := List.length_eq_one_iff.1 (le_antisymm (not_lt.1 hmany) (List.length_pos_of_mem hc))
        rw [List.mem_singleton.1 hc, ← List.mem_singleton.1 hb, hl]

end Value

namespace Config

/-- no two keys that are kept are the same -/
theorem pairwise_distinct (keys : List Value) : (distinct keys).Pairwise fun a b => a.sameKey b = false := by
  induction keys using List.reverseRecOn with
  | nil => exact .nil
  | append_singleton keys k ih =>
    rw [distinct_concat]
    split_ifs with hany
    · exact ih
    · refine List.pairwise_append.2 ⟨ih, List.pairwise_singleton _ _, ?_⟩
      intro a ha b hb
      rw [List.mem_singleton.1 hb, ← Bool.not_eq_true]
      exact fun hsame => hany (List.any_eq_true.2 ⟨a, ha, hsame⟩)

theorem mem_of_mem_unknown {keys : List Value} {k : Value} (h : k ∈ unknown keys) : k ∈ keys ∧ ¬ Known k := by
  obtain ⟨hmem, hnone⟩ := List.mem_filter.1 h
  exact ⟨mem_of_mem_distinct hmem, not_known_iff.2 hnone⟩

/-- a key that names no option is kept, or one of its kind is -/
theorem exists_mem_unknown {keys : List Value} {k : Value} (h : k ∈ keys) (hk : ¬ Known k) {l : Value.Kind}
    (hl : k.kind? = some l) : ∃ k' ∈ unknown keys, k'.kind? = some l := by
  obtain ⟨k', hk', hsame⟩ := exists_mem_distinct h
  rcases hsame with rfl | hsame
  · exact ⟨k', List.mem_filter.2 ⟨hk', not_known_iff.1 hk⟩, hl⟩
  · have hunknown : ¬ Known k' := by
      intro hknown
      obtain ⟨s, rfl⟩ := known_iff.1 hknown
      rw [Value.text_sameKey_iff.1 hsame] at hk
      exact hk hknown
    exact ⟨k', List.mem_filter.2 ⟨hk', not_known_iff.1 hunknown⟩, Value.kind?_of_sameKey hsame hl⟩

/-- keys of one kind that name no option are sorted: null, which has no order, is kept once -/
theorem exists_sorted_unknown {keys : List Value} {k : Value.Kind} (h : ∀ a ∈ unknown keys, a.kind? = some k) :
    ∃ s, Value.sorted (unknown keys) = .ok s := by
  have hpairs : (unknown keys).Pairwise fun a b => a.sameKey b = false := (pairwise_distinct keys).filter _
  rcases hkept : unknown keys with _ | ⟨a, _ | ⟨b, rest⟩⟩
  · exact ⟨_, rfl⟩
  · exact ⟨_, rfl⟩
  · rw [hkept] at h hpairs
    refine Value.exists_sorted ?_ h
    rintro rfl
    have hab := (List.pairwise_cons.1 hpairs).1 b List.mem_cons_self
    have ha := h a List.mem_cons_self
    have hb := h b (by simp)
    cases a <;> cases ha
    cases b <;> cases hb
    cases hab

/-- keys are sorted if no two of those that name no option are of different kinds -/
theorem sorted_unknown_eq_ok_iff {keys : List Value} (hkeys : ∀ a ∈ keys, a.kind?.isSome = true) :
    (∃ s, Value.sorted (unknown keys) = .ok s) ↔
      ∀ a ∈ keys, ∀ b ∈ keys, ¬ Known a → ¬ Known b → a.kind? = b.kind? := by
  constructor
  · rintro ⟨s, h⟩ a ha b hb hak hbk
    obtain ⟨k, hk⟩ := Option.isSome_iff_exists.1 (hkeys a ha)
    obtain ⟨l, hl⟩ := Option.isSome_iff_exists.1 (hkeys b hb)
    obtain ⟨a', ha', hk'⟩ := exists_mem_unknown ha hak hk
    obtain ⟨b', hb', hl'⟩ := exists_mem_unknown hb hbk hl
    have hsame : a'.kind? = b'.kind? := by
      by_cases hlength : 1 < (unknown keys).length
      · obtain ⟨m, -, hall⟩ :=
          Value.kind?_eq_of_sorted (fun c hc => hkeys c (mem_of_mem_unknown hc).1) h hlength
        rw [hall a' ha', hall b' hb']
      · obtain ⟨c, hc⟩ := List.length_eq_one_iff.1 (le_antisymm (not_lt.1 hlength) (List.length_pos_of_mem ha'))
        rw [hc, List.mem_singleton] at ha' hb'
        rw [ha', hb']
    rw [hk, hl, ← hk', ← hl', hsame]
  · intro h
    by_cases hempty : unknown keys = []
    · rw [hempty]
      exact ⟨_, rfl⟩
    · obtain ⟨a, ha⟩ := List.exists_mem_of_ne_nil _ hempty
      obtain ⟨hmem, hak⟩ := mem_of_mem_unknown ha
      obtain ⟨k, hk⟩ := Option.isSome_iff_exists.1 (hkeys a hmem)
      refine exists_sorted_unknown (k := k) fun b hb => ?_
      obtain ⟨hmem', hbk⟩ := mem_of_mem_unknown hb
      rw [← hk, h b hmem' a hmem hbk hak]

end Config

end Brainfuck
