/-
What a file is after it was written.

- `FileTree.at?_set_of_ne`: writing to a location leaves all others as they are.
- `FileTree.walk_set`: a path leads through directories, so it still leads where it led after something that is no
  directory was replaced.
- `FileTree.read_set_of_target`: so the file that was written to under a path is the one that is read under it.
-/
import Brainfuck.FileTree
import Brainfuck.Proofs.Validation

namespace Brainfuck

/-- text that does not end with a separator has something behind the last one -/
theorem getLast_cutAt_ne_nil {α : Type} [DecidableEq α] {separator : α} {cs : List α} (hcs : cs ≠ [])
    (hlast : cs.getLast? ≠ some separator) : ∀ piece ∈ (cutAt separator cs).getLast?, piece ≠ [] := by
  induction cs with
  | nil => exact absurd rfl hcs
  | cons c cs ih =>
    cases cs with
    | nil =>
      have hc : c ≠ separator := by simpa using hlast
      simp [cutAt, hc]
    | cons d cs =>
      have ih := ih (List.cons_ne_nil d cs) (by simpa using hlast)
      obtain ⟨piece, pieces, hcut⟩ := exists_cons_cutAt separator (d :: cs)
      rw [hcut] at ih
      rw [cutAt, hcut]
      by_cases hc : c = separator
      · simpa [hc] using ih
      · cases pieces with
        | nil => simp [hc]
        | cons piece' pieces => simpa [hc] using ih

namespace FileTree

variable {t : FileTree} {l l' : Location} {e : Entry} {path : Text}

/-! ## Locations -/

theorem lookup_filter_ne (h : l' ≠ l) (entries : List (Location × Entry)) :
    (entries.filter fun x => x.1 != l).lookup l' = entries.lookup l' := by
  induction entries with
  | nil => rfl
  | cons x entries ih =>
    obtain ⟨k, v⟩ := x
    by_cases hk : k = l
    · subst hk
      have hne : (l' == k) = false := by simpa using h
      simp [List.lookup_cons, ih, hne]
    · simp [hk, List.lookup_cons, ih]

/-- what is written to a location leaves all others as they are -/
theorem at?_set_of_ne (t : FileTree) (e : Entry) (h : l' ≠ l) : (t.set l e).at? l' = t.at? l' := by
  have hne : (l' == l) = false := by simpa using h
  simp only [at?, set, List.lookup_cons, hne, lookup_filter_ne h]

/-! ## Paths -/

section Paths

variable {start parent : Location} {name : Text}

theorem look_eq_ok_iff {found : Option Entry} :
    t.look start name = .ok found ↔ name.nameSize ≤ nameLimit ∧ t.at? (down start name) = found := by
  unfold look
  split <;> simp <;> omega

/-- names that lead through directories lead there again after something else was replaced -/
theorem walk_set (h : t.at? l ≠ some .directory) (e : Entry) {names : List Text}
    (hwalk : t.walk start names = .ok parent) : (t.set l e).walk start names = .ok parent := by
  induction names generalizing start with
  | nil => exact hwalk
  | cons name rest ih =>
    obtain ⟨found, hlook, hwalk⟩ := bind_eq_ok_iff.1 hwalk
    cases found with
    | none => cases hwalk
    | some entry =>
      cases entry with
      | file bytes => cases hwalk
      | directory =>
        obtain ⟨hshort, hat⟩ := look_eq_ok_iff.1 hlook
        have hne : down start name ≠ l := by
          rintro rfl
          exact h hat
        have hlook' : (t.set l e).look start name = .ok (some .directory) :=
          look_eq_ok_iff.2 ⟨hshort, (at?_set_of_ne t e hne).trans hat⟩
        rw [walk, hlook', ok_bind]
        exact ih hwalk

end Paths

theorem ne_nil_of_checkPath (h : checkPath path = .ok ()) : path ≠ [] := by
  rintro rfl
  exact absurd h (by decide)

/-- a path that does not end with a slash ends with a name -/
theorem exists_names_eq (hpath : path ≠ []) (hlast : path.getLast? ≠ some (.char '/')) :
    ∃ front name, names path = front ++ [name] ∧ name ≠ [] := by
  have hpieces := getLast_cutAt_ne_nil hpath hlast
  obtain ⟨piece, pieces, hcut⟩ := exists_cons_cutAt (.char '/') path
  rw [hcut] at hpieces
  refine ⟨(piece :: pieces).dropLast, (piece :: pieces).getLast (by simp), ?_, ?_⟩
  · rw [names, hcut, List.dropLast_append_getLast]
  · exact hpieces _ (List.getLast?_eq_some_getLast (by simp))

/-- where something is written under a path: in a directory that the names before the last one lead to, under that
one, and not in place of a directory -/
theorem exists_of_target (h : t.target path = .ok l) : checkPath path = .ok () ∧ t.at? l ≠ some .directory ∧
    ∃ front name parent, names path = front ++ [name] ∧ t.walk (t.start path) front = .ok parent ∧
      name.nameSize ≤ nameLimit ∧ down parent name = l := by
  obtain ⟨⟨⟩, hcheck, h⟩ := bind_eq_ok_iff.1 (mapError_eq_ok_iff.1 h)
  obtain ⟨parent, hwalk, h⟩ := bind_eq_ok_iff.1 h
  split at h
  · cases h
  rename_i hlast
  obtain ⟨found, hlook, h⟩ := bind_eq_ok_iff.1 h
  obtain ⟨front, name, hnames, hname⟩ := exists_names_eq (ne_nil_of_checkPath hcheck) hlast
  have hasked : (names path).reverse.dropWhile (· = []) = name :: front.reverse := by simp [hnames, hname]
  simp only [hasked, List.tail_cons, List.reverse_reverse, List.headD_cons] at hwalk hlook h
  obtain ⟨hshort, rfl⟩ := look_eq_ok_iff.1 hlook
  split at h
  · cases h
  rename_i hfree
  obtain rfl := Except.ok.inj h
  exact ⟨hcheck, hfree, front, name, parent, hnames, hwalk, hshort, rfl⟩

/-- what was written under a path is read under it -/
theorem read_set_of_target (h : t.target path = .ok l) (bytes : List UInt8) :
    (t.set l (.file bytes)).read path = .ok bytes := by
  obtain ⟨hcheck, hfree, front, name, parent, hnames, hwalk, hshort, rfl⟩ := exists_of_target h
  have hroot : down parent name ≠ [] := by
    intro hnil
    exact hfree (by simp [at?, hnil])
  have hlook : (t.set (down parent name) (.file bytes)).look parent name = .ok (some (.file bytes)) :=
    look_eq_ok_iff.2 ⟨hshort, at?_set_self t _ hroot⟩
  have hwalk' := walk_set hfree (.file bytes) hwalk
  have hstart : (t.set (down parent name) (.file bytes)).start path = t.start path := rfl
  simp only [read, hcheck, ok_bind, hnames, hstart, List.dropLast_concat, hwalk', List.getLastD_concat, hlook]
  rfl

end FileTree

end Brainfuck
