/-
The options in a configuration file.

- `FileContent.entries?`: the entries of a file that holds a mapping of options, at its top or in the section for them.
  A file that holds nothing, and a section that is empty, have no entries. `Config.entriesOf?` are those of the file at
  a path.
- `Config.collected_overlayValue`: what is no mapping is taken for the collection of its elements. No such collection
  sets an option (`Config.of_overlayValue`).
- `Config.load_eq_ok_iff`: a file is accepted if its entries all name options and what they give, laid over the base,
  is valid. `Config.load_of_entries` gives the answer for entries that all name options.
-/
import Brainfuck.Config.File
import Brainfuck.Proofs.Overlays

namespace Brainfuck.Config

/-! ## Values that are no mappings -/

/-- what comes of elements that are given for options: those that cannot be keys are reported, then those that name no
option, and last an element that is no pair -/
inductive Collected (c : Config) (elements : List Value) : Except ConfigError Config → Prop where
  | unhashable {a : Value} {name : String} (ha : a ∈ elements) (h : unhashable? a = some name) :
      Collected c elements (.error (.unhashable name))
  | refused {e : ConfigError} (hhash : ∀ a ∈ elements, unhashable? a = none) (h : checkKeys elements = .error e) :
      Collected c elements (.error e)
  | empty (h : elements = []) : Collected c elements (.ok c)
  | notPair {n : Nat} (hhash : ∀ a ∈ elements, unhashable? a = none) (h : checkKeys elements = .ok ()) :
      Collected c elements (.error (.notPair 0 n))

theorem overlayValue_of_error (c : Config) {v : Value} {e : ConfigError} (hv : ∀ entries, v ≠ .mapping entries)
    (h : elementsOf v = .error e) : c.overlayValue v = .error e := by
  unfold overlayValue
  split
  · exact absurd rfl (hv _)
  · rw [h, error_bind]

theorem collected_overlayValue (c : Config) {v : Value} {elements : List Value} (hv : ∀ entries, v ≠ .mapping entries)
    (h : elementsOf v = .ok elements) : Collected c elements (c.overlayValue v) := by
  unfold overlayValue
  split
  · exact absurd rfl (hv _)
  · rw [h, ok_bind]
    cases hfound : elements.findSome? unhashable? with
    | some name =>
      obtain ⟨a, ha, hname⟩ := List.exists_of_findSome?_eq_some hfound
      exact .unhashable ha hname
    | none =>
      have hhash := List.findSome?_eq_none_iff.1 hfound
      cases hkeys : checkKeys elements with
      | error e => exact .refused hhash hkeys
      | ok _ =>
        cases elements with
        | nil => exact .empty rfl
        | cons a rest => cases a <;> exact .notPair hhash hkeys

theorem isTruthy_of_elementsOf {v : Value} (h : elementsOf v = .ok []) : v.isTruthy = false := by
  cases v with
  | text t => simpa [elementsOf, Value.isTruthy] using h
  | bytes bs => simpa [elementsOf, Value.isTruthy] using h
  | list items => simpa [elementsOf, Value.isTruthy] using h
  | set items => simpa [elementsOf, Value.isTruthy] using h
  | _ => simp [elementsOf] at h

/-- what is no mapping is laid over a configuration only if it is empty -/
theorem of_overlayValue {c c' : Config} {v : Value} (h : c.overlayValue v = .ok c') :
    (∃ entries, v = .mapping entries ∧ c.overlay entries = .ok c') ∨ (v.isTruthy = false ∧ c' = c) := by
  by_cases hv : ∃ entries, v = .mapping entries
  · obtain ⟨entries, rfl⟩ := hv
    exact .inl ⟨entries, rfl, h⟩
  · have hv := not_exists.1 hv
    cases helements : elementsOf v with
    | error e => cases (overlayValue_of_error c hv helements).symm.trans h
    | ok elements =>
      have hcollected := collected_overlayValue c hv helements
      rw [h] at hcollected
      cases hcollected with
      | empty hempty => exact .inr ⟨isTruthy_of_elementsOf (hempty ▸ helements), rfl⟩

/-- the entries that a value is given as; what is no mapping has none -/
def entries : Value → List (Value × Value)
  | .mapping entries => entries
  | _ => []

theorem overlay_eq_ok_iff {c c' : Config} {entries : List (Value × Value)} : c.overlay entries = .ok c' ↔
    (∀ e ∈ entries, Known e.1) ∧ (c.draft.under (entryValue? entries)).build = .ok c' := by
  constructor
  · intro h
    obtain ⟨_, hkeys, -⟩ := bind_eq_ok_iff.1 h
    have hknown : ∀ e ∈ entries, Known e.1 := fun e he => checkKeys_eq_ok_iff.1 hkeys _ (List.mem_map_of_mem he)
    rw [overlay_eq c.reads_draft hknown] at h
    exact ⟨hknown, h⟩
  · rintro ⟨hknown, h⟩
    rw [overlay_eq c.reads_draft hknown]
    exact h

/-- what is accepted is what its entries give, laid over the configuration -/
theorem entries_of_overlayValue {c c' : Config} {v : Value} (h : c.overlayValue v = .ok c') :
    (∀ e ∈ entries v, Known e.1) ∧ (c.draft.under (entryValue? (entries v))).build = .ok c' := by
  rcases of_overlayValue h with ⟨es, rfl, h⟩ | ⟨hv, rfl⟩
  · exact overlay_eq_ok_iff.1 h
  · have hempty : entries v = [] := by
      cases v with
      | mapping es => simpa [Value.isTruthy, entries] using hv
      | _ => rfl
    rw [hempty]
    exact ⟨by simp, c'.build_draft⟩

/-! ## Files -/

/-- the entries of a mapping of options: those at the top, or those of the section for options if there is one; nothing
and an empty section have none -/
def FileContent.entries? (c : FileContent) : Option (List (Value × Value)) :=
  match c.whole, c.nested with
  | .null, _ => some []
  | .mapping entries, none => some entries
  | .mapping _, some (.mapping entries) => some entries
  | .mapping _, some v => if v.isTruthy then none else some []
  | _, _ => none

/-- the entries of the file at a path -/
def entriesOf? (files : FileTree) (path : Text) : Option (List (Value × Value)) := do
  let bytes ← (files.read path).toOption
  let content ← (parseFile files.nesting path bytes).toOption
  content.entries?

theorem optionsOf_of_entries (path : Text) {c : FileContent} {es : List (Value × Value)} (h : c.entries? = some es) :
    optionsOf path c = .ok (.mapping es) := by
  unfold FileContent.entries? at h
  unfold optionsOf
  split at h
  · rename_i hwhole
    cases h
    rw [hwhole]
  · rename_i hwhole hnested
    cases h
    rw [hwhole, hnested]
  · rename_i hwhole hnested
    cases h
    rw [hwhole, hnested]
    cases es <;> rfl
  · rename_i hwhole hnested
    split at h
    · cases h
    · rename_i hfalse
      cases h
      rw [hwhole, hnested]
      exact congrArg Except.ok (if_neg hfalse)
  · cases h

/-- the options of a file are accepted only if they are a mapping -/
theorem entries_of_optionsOf {path : Text} {content : FileContent} {v : Value} {c c' : Config}
    (hv : optionsOf path content = .ok v) (h : c.overlayValue v = .ok c') : content.entries? = some (entries v) := by
  unfold optionsOf at hv
  unfold FileContent.entries?
  split at hv
  · rename_i hwhole
    cases hv
    rw [hwhole]
    rfl
  · rename_i hwhole hnested
    cases hv
    rw [hwhole, hnested]
    rfl
  · rename_i es w hwhole hnested
    rw [hwhole, hnested]
    by_cases hw : w.isTruthy = true
    · obtain rfl : w = v := by simpa [hw] using hv
      rcases of_overlayValue h with ⟨es', rfl, -⟩ | ⟨hfalse, -⟩
      · rfl
      · rw [hw] at hfalse
        cases hfalse
    · obtain rfl : .mapping [] = v := by simpa [hw] using hv
      cases w with
      | mapping es' =>
        have hempty : es' = [] := by simpa [Value.isTruthy] using hw
        rw [hempty]
        rfl
      | _ => exact if_neg hw
  · cases hv

theorem load_of_entries {files : FileTree} {path : Text} {base : Config} {d : Draft} (hd : d.Reads base.options)
    {es : List (Value × Value)} (hes : entriesOf? files path = some es) (hknown : ∀ e ∈ es, Known e.1) :
    load files path base = ((d.under (entryValue? es)).build).mapError .config := by
  obtain ⟨bytes, hread, hes⟩ := Option.bind_eq_some_iff.1 hes
  obtain ⟨content, hparse, hes⟩ := Option.bind_eq_some_iff.1 hes
  have hread : files.read path = .ok bytes := toOption_eq_some_iff.1 hread
  have hparse : parseFile files.nesting path bytes = .ok content := toOption_eq_some_iff.1 hparse
  have hoverlay : base.overlayValue (.mapping es) = (d.under (entryValue? es)).build := overlay_eq hd hknown
  rw [load, hread, mapError_ok, ok_bind, hparse, ok_bind, optionsOf_of_entries path hes, ok_bind, hoverlay]

/-- a file is accepted if it holds a mapping of options, and then it is what its entries give, laid over the base -/
theorem load_eq_ok_iff {files : FileTree} {path : Text} {base c : Config} : load files path base = .ok c ↔
    ∃ es, entriesOf? files path = some es ∧ (∀ e ∈ es, Known e.1) ∧
      (base.draft.under (entryValue? es)).build = .ok c := by
  constructor
  · intro h
    obtain ⟨bytes, hread, h⟩ := bind_eq_ok_iff.1 h
    obtain ⟨content, hparse, h⟩ := bind_eq_ok_iff.1 h
    obtain ⟨v, hv, h⟩ := bind_eq_ok_iff.1 h
    have hread : files.read path = .ok bytes := mapError_eq_ok_iff.1 hread
    have hoverlay : base.overlayValue v = .ok c := mapError_eq_ok_iff.1 h
    refine ⟨entries v, ?_, entries_of_overlayValue hoverlay⟩
    rw [entriesOf?, hread, Except.toOption, Option.bind_eq_bind, Option.bind_some, hparse]
    exact entries_of_optionsOf hv hoverlay
  · rintro ⟨es, hes, hknown, hbuild⟩
    rw [load_of_entries base.reads_draft hes hknown, hbuild, mapError_ok]

end Brainfuck.Config
