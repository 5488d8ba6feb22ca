/-
What a JSON document spells.

- `Value.IsJson`: null, truth values, numbers, texts, lists of such values, and mappings from texts to such values.
- `Json.isJson_of_parse`: a document that is read gives such a value. The readers of values, elements and members call
  one another on less fuel, so one induction on the fuel carries all three (`Json.GivesJson`).
-/
import Mathlib.Tactic
import Brainfuck.Json.Reader
import Brainfuck.Proofs.Validation

namespace Brainfuck

/-- the values that JSON can spell -/
inductive Value.IsJson : Value → Prop where
  | null : IsJson .null
  | bool (b : Bool) : IsJson (.bool b)
  | int (n : Int) : IsJson (.int n)
  | float (x : Float) : IsJson (.float x)
  | text (t : Text) : IsJson (.text t)
  | list {items : List Value} (h : ∀ v ∈ items, IsJson v) : IsJson (.list items)
  | mapping {entries : List (Value × Value)} (hkeys : ∀ e ∈ entries, ∃ t, e.1 = .text t)
      (hvalues : ∀ e ∈ entries, IsJson e.2) : IsJson (.mapping entries)

namespace Json

theorem isJson_of_number {negative : Bool} {start cs rest : List Char} {v : Value}
    (h : number negative start cs = .ok (v, rest)) : v.IsJson := by
  unfold number at h
  dsimp only at h
  split at h
  · cases h
  · split_ifs at h
    all_goals cases h
    all_goals first | exact .float _ | exact .int _

theorem isJson_of_scalar {cs rest : List Char} {v : Value} (h : scalar cs = .ok (v, rest)) : v.IsJson := by
  unfold scalar at h
  split at h
  · cases h; exact .null
  · cases h; exact .bool _
  · cases h; exact .bool _
  · cases h; exact .float _
  · cases h; exact .float _
  · cases h; exact .float _
  · exact isJson_of_number h
  · exact isJson_of_number h

/-- an entry of a mapping that JSON can spell -/
def IsMember (e : Value × Value) : Prop := (∃ t, e.1 = .text t) ∧ e.2.IsJson

theorem isMember_insert {key v : Value} {entries : List (Value × Value)} (hnew : IsMember (key, v))
    (h : ∀ e ∈ entries, IsMember e) : ∀ e ∈ Value.insert key v entries, IsMember e := by
  induction entries with
  | nil => simpa [Value.insert] using hnew
  | cons e es ih =>
    obtain ⟨he, hes⟩ := List.forall_mem_cons.1 h
    rw [Value.insert]
    split_ifs
    · exact List.forall_mem_cons.2 ⟨⟨he.1, hnew.2⟩, hes⟩
    · exact List.forall_mem_cons.2 ⟨he, ih hes⟩

theorem isJson_ofEntries {entries : List (Value × Value)} (h : ∀ e ∈ entries, IsMember e) :
    (Value.ofEntries entries).IsJson := by
  have hfold : ∀ done : List (Value × Value), (∀ e ∈ done, IsMember e) →
      ∀ e ∈ entries.foldl (fun es e => Value.insert e.1 e.2 es) done, IsMember e := by
    induction entries with
    | nil => exact fun done hdone => hdone
    | cons e es ih =>
      intro done hdone
      obtain ⟨he, hes⟩ := List.forall_mem_cons.1 h
      exact ih hes _ (isMember_insert he hdone)
  have hall := hfold [] (by simp)
  exact .mapping (fun e he => (hall e he).1) fun e he => (hall e he).2

/-- with this fuel the readers of values, elements and members give what JSON can spell -/
structure GivesJson (fuel : Nat) : Prop where
  value : ∀ {room : Nat} {cs rest : List Char} {v : Value}, value fuel room cs = .ok (v, rest) → v.IsJson
  elements : ∀ {room : Nat} {done : List Value} {cs rest : List Char} {v : Value}, (∀ w ∈ done, w.IsJson) →
    elements fuel room done cs = .ok (v, rest) → v.IsJson
  members : ∀ {room : Nat} {done : List (Value × Value)} {cs rest : List Char} {v : Value}, (∀ e ∈ done, IsMember e) →
    members fuel room done cs = .ok (v, rest) → v.IsJson

namespace GivesJson

variable {fuel room : Nat} {cs rest : List Char} {v : Value}

theorem of_value (ih : GivesJson fuel) (h : Json.value (fuel + 1) room cs = .ok (v, rest)) : v.IsJson := by
  unfold Json.value at h
  split at h
  · obtain ⟨_, -, ⟨⟩⟩ := map_eq_ok_iff.1 h
    exact .text _
  · split at h
    · cases h
    · split at h
      · cases h
        exact .list (by simp)
      · exact ih.elements (by simp) h
  · split at h
    · cases h
    · split at h
      · cases h
        exact .mapping (by simp) (by simp)
      · exact ih.members (by simp) h
  · exact isJson_of_scalar h

theorem of_elements (ih : GivesJson fuel) {done : List Value} (hdone : ∀ w ∈ done, w.IsJson)
    (h : Json.elements (fuel + 1) room done cs = .ok (v, rest)) : v.IsJson := by
  unfold Json.elements at h
  split at h
  · cases h
  · rename_i w _ hw
    have hmore : ∀ x ∈ w :: done, x.IsJson := List.forall_mem_cons.2 ⟨ih.value hw, hdone⟩
    split at h
    · cases h
      exact .list fun x hx => hmore x (List.mem_reverse.1 hx)
    · exact ih.elements hmore h
    · cases h

theorem of_members (ih : GivesJson fuel) {done : List (Value × Value)} (hdone : ∀ e ∈ done, IsMember e)
    (h : Json.members (fuel + 1) room done cs = .ok (v, rest)) : v.IsJson := by
  unfold Json.members at h
  split at h
  · split at h
    · cases h
    · split at h
      · split at h
        · cases h
        · rename_i w _ hw
          have hmore : ∀ key, ∀ e ∈ (.text key, w) :: done, IsMember e :=
            fun key => List.forall_mem_cons.2 ⟨⟨⟨key, rfl⟩, ih.value hw⟩, hdone⟩
          dsimp only at h
          split at h
          · cases h
            exact isJson_ofEntries fun e he => hmore _ e (List.mem_reverse.1 he)
          · exact ih.members (hmore _) h
          · cases h
      · cases h
  · cases h

end GivesJson

theorem givesJson (fuel : Nat) : GivesJson fuel := by
  induction fuel with
  | zero =>
    constructor
    · intro room cs rest v h
      cases h
    · intro room done cs rest v _ h
      cases h
    · intro room done cs rest v _ h
      cases h
  | succ fuel ih => exact ⟨ih.of_value, ih.of_elements, ih.of_members⟩

theorem isJson_of_document {room : Nat} {cs rest : List Char} {v : Value} (h : document room cs = .ok (v, rest)) :
    v.IsJson := by
  unfold document at h
  split at h
  · cases h
  · split at h
    · cases h
    · rename_i hv
      split at h
      · cases h
        exact (givesJson _).value hv
      · cases h

/-- a document that is read spells a value of JSON -/
theorem isJson_of_parse {room : Nat} {cs : List Char} {v : Value} (h : parse cs room = .ok v) : v.IsJson := by
  unfold parse at h
  split at h
  · rename_i hv
    cases h
    exact isJson_of_document hv
  · cases h
  · cases h
  · cases h

end Json

end Brainfuck
