/-
How much of a document a reader takes, and how deep it goes.

- `Json.Takes`: a reader leaves a shorter end of what it was given. Every reader that succeeds does so
  (`Json.takesAll`); as the readers of values, elements and members call one another on less fuel, one induction on the
  fuel carries all three.
- `Json.value_fuel`: so twice the length of the text is enough fuel, and more of it changes nothing.
- `Json.parse_room`: more room changes nothing either, unless the document was too deep. It is not if it has no more
  opening brackets than there is room (`Json.opening_of_tooDeep`).
- `Json.parse_openings`: opening brackets alone are too deep as soon as there are more of them.
-/
import Mathlib.Tactic
import Brainfuck.Json.Reader
import Brainfuck.Proofs.Validation

namespace Brainfuck.Json

/-- the rest is an end of the text, and shorter -/
structure Takes (cs rest : List Char) : Prop where
  suffix : rest <:+ cs
  shorter : rest.length < cs.length

namespace Takes

variable {cs rest rest' : List Char} {c : Char}

theorem cons (h : rest <:+ cs) : Takes (c :: cs) rest :=
  ⟨h.trans (List.suffix_cons c cs), Nat.lt_succ_of_le h.length_le⟩

theorem append (front : List Char) (h : front ≠ []) : Takes (front ++ rest) rest :=
  ⟨List.suffix_append _ _, by simpa using List.length_pos_iff.2 h⟩

theorem trans_suffix (h : Takes cs rest) (h' : rest' <:+ rest) : Takes cs rest' :=
  ⟨h'.trans h.suffix, Nat.lt_of_le_of_lt h'.length_le h.shorter⟩

theorem trans (h : Takes cs rest) (h' : Takes rest rest') : Takes cs rest' := h.trans_suffix h'.suffix

end Takes

theorem skipSpace_suffix (cs : List Char) : skipSpace cs <:+ cs := List.dropWhile_suffix _

/-! ## Strings and numbers -/

theorem suffix_of_fourDigits? {cs rest : List Char} {n : Nat} (h : fourDigits? cs = some (n, rest)) : rest <:+ cs := by
  unfold fourDigits? at h
  split at h
  · simp only [Option.bind_eq_bind, Option.bind_eq_some_iff] at h
    obtain ⟨_, -, _, -, _, -, _, -, h⟩ := h
    cases h
    exact ⟨[_, _, _, _], rfl⟩
  · cases h

theorem suffix_of_codePoint {afterBackslash digits rest : List Char} {p : CodePoint}
    (h : codePoint afterBackslash digits = .ok (p, rest)) : rest <:+ digits := by
  unfold codePoint at h
  split at h
  · cases h
  · rename_i n rest₁ hdigits
    have hsuffix := suffix_of_fourDigits? hdigits
    have halone : ∀ {q : CodePoint}, Except.ok (ε := Refusal) (q, rest₁) = .ok (p, rest) → rest <:+ digits := by
      intro q hq
      cases hq
      exact hsuffix
    dsimp only at h
    split at h
    · split at h
      · split at h
        · exact halone h
        · split at h
          · cases h
          · rename_i hsecond
            split at h
            · obtain ⟨-, rfl⟩ := Prod.mk.inj (Except.ok.inj h)
              exact ((suffix_of_fourDigits? hsecond).trans ((List.suffix_cons _ _).trans (List.suffix_cons _ _))).trans
                hsuffix
            · exact halone h
      · exact halone h
    · exact halone h

theorem suffix_of_stringBody {start cs rest : List Char} {fuel : Nat} {done t : Text}
    (h : stringBody start fuel done cs = .ok (t, rest)) : rest <:+ cs := by
  induction fuel generalizing done cs with
  | zero => cases h
  | succ fuel ih =>
    unfold stringBody at h
    split at h
    · cases h
    · cases h
      exact List.suffix_cons _ _
    · split at h
      · cases h
      · split at h
        · cases h
        · rename_i hpoint
          exact (ih h).trans ((suffix_of_codePoint hpoint).trans ((List.suffix_cons _ _).trans (List.suffix_cons _ _)))
      · split at h
        · cases h
        · exact (ih h).trans ((List.suffix_cons _ _).trans (List.suffix_cons _ _))
    · split_ifs at h
      · cases h
      · exact (ih h).trans (List.suffix_cons _ _)

theorem suffix_of_fraction {cs ds rest : List Char} (h : fraction cs = some (ds, rest)) : rest <:+ cs := by
  unfold fraction at h
  split at h
  · split at h
    · cases h
    · rename_i hdigits
      cases h
      cases hdigits
      exact (List.dropWhile_suffix _).trans (List.suffix_cons _ _)
  · cases h

theorem sign_suffix (cs : List Char) : (Numeral.sign cs).2 <:+ cs := by
  unfold Numeral.sign
  split
  · exact List.suffix_cons _ _
  · exact List.suffix_cons _ _
  · exact List.suffix_refl _

theorem suffix_of_exponent {cs rest : List Char} {e : Int} (h : exponent cs = some (e, rest)) : rest <:+ cs := by
  unfold exponent at h
  split at h
  · split_ifs at h
    dsimp only at h
    split at h
    · cases h
    · rename_i hdigits
      cases h
      cases hdigits
      exact ((List.dropWhile_suffix _).trans (sign_suffix _)).trans (List.suffix_cons _ _)
  · cases h

/-- the rest behind a part that may be missing -/
theorem suffix_getD {α : Type} {found : Option (α × List Char)} {cs : List Char} (a : α)
    (h : ∀ b rest, found = some (b, rest) → rest <:+ cs) : (found.getD (a, cs)).2 <:+ cs := by
  cases found with
  | none => exact List.suffix_refl _
  | some r => exact h r.1 r.2 rfl

theorem takes_of_digitsOf {cs ds rest : List Char} (h : digitsOf cs = (ds, rest)) (hds : ds ≠ []) : Takes cs rest := by
  cases h
  refine ⟨List.dropWhile_suffix _, ?_⟩
  have hlength := congrArg List.length (List.takeWhile_append_dropWhile (p := Char.isDigit) (l := cs))
  have hpos := List.length_pos_iff.2 hds
  rw [List.length_append] at hlength
  omega

theorem takes_of_number {negative : Bool} {start cs rest : List Char} {v : Value}
    (h : number negative start cs = .ok (v, rest)) : Takes cs rest := by
  unfold number at h
  dsimp only at h
  split at h
  · cases h
  · rename_i ds rest₁ hds hwhole
    have htakes : Takes cs rest₁ := by
      split at hwhole
      · cases hwhole
        exact .cons (List.suffix_refl _)
      · exact takes_of_digitsOf hwhole (by simpa using hds)
    have hfraction : ((fraction rest₁).getD ([], rest₁)).2 <:+ rest₁ := suffix_getD _ fun _ _ => suffix_of_fraction
    have hexponent : ((exponent ((fraction rest₁).getD ([], rest₁)).2).getD
        (0, ((fraction rest₁).getD ([], rest₁)).2)).2 <:+ rest₁ :=
      (suffix_getD _ fun _ _ => suffix_of_exponent).trans hfraction
    split at h
    · cases h
      exact htakes.trans_suffix hexponent
    · split at h
      · cases h
      · cases h
        exact htakes.trans_suffix hexponent

theorem takes_of_scalar {cs rest : List Char} {v : Value} (h : scalar cs = .ok (v, rest)) : Takes cs rest := by
  unfold scalar at h
  split at h
  · cases h
    exact .append ['n', 'u', 'l', 'l'] (by simp)
  · cases h
    exact .append ['t', 'r', 'u', 'e'] (by simp)
  · cases h
    exact .append ['f', 'a', 'l', 's', 'e'] (by simp)
  · cases h
    exact .append ['N', 'a', 'N'] (by simp)
  · cases h
    exact .append ['I', 'n', 'f', 'i', 'n', 'i', 't', 'y'] (by simp)
  · cases h
    exact .append ['-', 'I', 'n', 'f', 'i', 'n', 'i', 't', 'y'] (by simp)
  · exact (Takes.cons (List.suffix_refl _)).trans (takes_of_number h)
  · exact takes_of_number h

/-! ## Values -/

/-- with this fuel the readers of values, elements and members take something -/
structure TakesAll (fuel : Nat) : Prop where
  value : ∀ {room : Nat} {cs rest : List Char} {v : Value}, value fuel room cs = .ok (v, rest) → Takes cs rest
  elements : ∀ {room : Nat} {done : List Value} {cs rest : List Char} {v : Value},
    elements fuel room done cs = .ok (v, rest) → Takes cs rest
  members : ∀ {room : Nat} {done : List (Value × Value)} {cs rest : List Char} {v : Value},
    members fuel room done cs = .ok (v, rest) → Takes cs rest

theorem suffix_of_skipSpace {cs rest : List Char} {c : Char} (h : skipSpace cs = c :: rest) : rest <:+ cs :=
  (List.suffix_cons c rest).trans (h ▸ skipSpace_suffix cs)

namespace TakesAll

variable {fuel room : Nat} {cs rest : List Char} {v : Value}

theorem of_value (ih : TakesAll fuel) (h : Json.value (fuel + 1) room cs = .ok (v, rest)) : Takes cs rest := by
  unfold Json.value at h
  split at h
  · obtain ⟨_, hstring, ⟨⟩⟩ := map_eq_ok_iff.1 h
    exact .cons (suffix_of_stringBody hstring)
  · split at h
    · cases h
    · split at h
      · rename_i hend
        cases h
        exact .cons (suffix_of_skipSpace hend)
      · exact .cons ((ih.elements h).suffix.trans (skipSpace_suffix _))
  · split at h
    · cases h
    · split at h
      · rename_i hend
        cases h
        exact .cons (suffix_of_skipSpace hend)
      · exact .cons ((ih.members h).suffix.trans (skipSpace_suffix _))
  · exact takes_of_scalar h

theorem of_elements (ih : TakesAll fuel) {done : List Value}
    (h : Json.elements (fuel + 1) room done cs = .ok (v, rest)) : Takes cs rest := by
  unfold Json.elements at h
  split at h
  · cases h
  · rename_i hfirst
    have hfirst := ih.value hfirst
    split at h
    · rename_i hend
      cases h
      exact hfirst.trans_suffix (suffix_of_skipSpace hend)
    · rename_i hcomma
      exact hfirst.trans_suffix ((ih.elements h).suffix.trans ((skipSpace_suffix _).trans (suffix_of_skipSpace hcomma)))
    · cases h

theorem of_members (ih : TakesAll fuel) {done : List (Value × Value)}
    (h : Json.members (fuel + 1) room done cs = .ok (v, rest)) : Takes cs rest := by
  unfold Json.members at h
  split at h
  · split at h
    · cases h
    · rename_i hkey
      split at h
      · rename_i hcolon
        split at h
        · cases h
        · rename_i hvalue
          have hkey := Takes.cons (c := '"') (suffix_of_stringBody hkey)
          have hvalue := (hkey.trans_suffix (suffix_of_skipSpace hcolon)).trans_suffix
            ((ih.value hvalue).suffix.trans (skipSpace_suffix _))
          dsimp only at h
          split at h
          · rename_i hend
            cases h
            exact hvalue.trans_suffix (suffix_of_skipSpace hend)
          · rename_i hcomma
            exact hvalue.trans_suffix
              ((ih.members h).suffix.trans ((skipSpace_suffix _).trans (suffix_of_skipSpace hcomma)))
          · cases h
      · cases h
  · cases h

end TakesAll

theorem takesAll (fuel : Nat) : TakesAll fuel := by
  induction fuel with
  | zero =>
    constructor
    · intro room cs rest v h
      cases h
    · intro room done cs rest v h
      cases h
    · intro room done cs rest v h
      cases h
  | succ fuel ih => exact ⟨ih.of_value, ih.of_elements, ih.of_members⟩

/-! ## Enough fuel, and room -/

/-- the answer is not that the document is too deep -/
def Shallow {α : Type} (answer : Answer α) : Prop := ∀ isMapping, answer ≠ .error (.tooDeep isMapping)

/-- between these fuels, if the smaller one suffices, and these amounts of room the readers agree; where the rooms
differ this is so unless the smaller one gave out -/
structure Agree (fuel fuel' : Nat) : Prop where
  value : ∀ {room room' : Nat} {cs : List Char}, 2 * cs.length + 1 ≤ fuel → room ≤ room' →
    (room' = room ∨ Shallow (value fuel room cs)) → value fuel' room' cs = value fuel room cs
  elements : ∀ {room room' : Nat} {done : List Value} {cs : List Char}, 2 * cs.length + 2 ≤ fuel → room ≤ room' →
    (room' = room ∨ Shallow (elements fuel room done cs)) → elements fuel' room' done cs = elements fuel room done cs
  members : ∀ {room room' : Nat} {done : List (Value × Value)} {cs : List Char}, 2 * cs.length + 2 ≤ fuel →
    room ≤ room' → (room' = room ∨ Shallow (members fuel room done cs)) →
    members fuel' room' done cs = members fuel room done cs

namespace Agree

variable {fuel fuel' room room' : Nat} {cs : List Char}

theorem of_value (ih : Agree fuel fuel') (hfuel : 2 * cs.length + 1 ≤ fuel + 1) (hroom : room ≤ room')
    (h : room' = room ∨ Shallow (Json.value (fuel + 1) room cs)) :
    Json.value (fuel' + 1) room' cs = Json.value (fuel + 1) room cs := by
  revert h
  unfold Json.value
  split
  · exact fun _ => rfl
  · rename_i rest
    have hlength := (skipSpace_suffix rest).length_le
    rw [List.length_cons] at hfuel
    cases room with
    | zero =>
      rintro (rfl | h)
      · rfl
      · exact absurd rfl (h false)
    | succ room =>
      obtain ⟨room', rfl⟩ := Nat.exists_eq_add_one_of_ne_zero (Nat.ne_zero_of_lt hroom)
      dsimp only
      split
      · exact fun _ => rfl
      · intro h
        exact ih.elements (by omega) (by omega) (h.imp_left Nat.succ.inj)
  · rename_i rest
    have hlength := (skipSpace_suffix rest).length_le
    rw [List.length_cons] at hfuel
    cases room with
    | zero =>
      rintro (rfl | h)
      · rfl
      · exact absurd rfl (h true)
    | succ room =>
      obtain ⟨room', rfl⟩ := Nat.exists_eq_add_one_of_ne_zero (Nat.ne_zero_of_lt hroom)
      dsimp only
      split
      · exact fun _ => rfl
      · intro h
        exact ih.members (by omega) (by omega) (h.imp_left Nat.succ.inj)
  · exact fun _ => rfl

theorem of_elements (ih : Agree fuel fuel') {done : List Value} (hfuel : 2 * cs.length + 2 ≤ fuel + 1)
    (hroom : room ≤ room') (h : room' = room ∨ Shallow (Json.elements (fuel + 1) room done cs)) :
    Json.elements (fuel' + 1) room' done cs = Json.elements (fuel + 1) room done cs := by
  revert h
  unfold Json.elements
  cases hvalue : Json.value fuel room cs with
  | error e =>
    intro h
    rw [ih.value (by omega) hroom (h.imp_right fun h => by rwa [hvalue]), hvalue]
  | ok r =>
    obtain ⟨v, rest⟩ := r
    have hsame : Json.value fuel' room' cs = Json.value fuel room cs :=
      ih.value (by omega) hroom (.inr fun m => by rw [hvalue]; exact nofun)
    have hshorter := ((takesAll fuel).value hvalue).shorter
    rw [hsame, hvalue]
    dsimp only
    split
    · exact fun _ => rfl
    · rename_i hcomma
      have hlength := ((skipSpace_suffix _).trans (suffix_of_skipSpace hcomma)).length_le
      exact ih.elements (by omega) hroom
    · exact fun _ => rfl

theorem of_members (ih : Agree fuel fuel') {done : List (Value × Value)} (hfuel : 2 * cs.length + 2 ≤ fuel + 1)
    (hroom : room ≤ room') (h : room' = room ∨ Shallow (Json.members (fuel + 1) room done cs)) :
    Json.members (fuel' + 1) room' done cs = Json.members (fuel + 1) room done cs := by
  revert h
  unfold Json.members
  split
  · rename_i text
    rw [List.length_cons] at hfuel
    cases hkey : stringBody ('"' :: text) ('"' :: text).length [] text with
    | error e => exact fun _ => rfl
    | ok r =>
      obtain ⟨key, rest⟩ := r
      have hrest := (suffix_of_stringBody hkey).length_le
      dsimp only
      split
      · rename_i behind hcolon
        have hbehind := ((skipSpace_suffix behind).trans (suffix_of_skipSpace hcolon)).length_le
        cases hvalue : Json.value fuel room (skipSpace behind) with
        | error e =>
          intro h
          rw [ih.value (by omega) hroom (h.imp_right fun h => by rwa [hvalue]), hvalue]
        | ok r =>
          obtain ⟨v, rest'⟩ := r
          have hsame : Json.value fuel' room' (skipSpace behind) = Json.value fuel room (skipSpace behind) :=
            ih.value (by omega) hroom (.inr fun m => by rw [hvalue]; exact nofun)
          have hshorter := ((takesAll fuel).value hvalue).shorter
          rw [hsame, hvalue]
          dsimp only
          split
          · exact fun _ => rfl
          · rename_i hcomma
            have hlength := ((skipSpace_suffix _).trans (suffix_of_skipSpace hcomma)).length_le
            exact ih.members (by omega) hroom
          · exact fun _ => rfl
      · exact fun _ => rfl
  · exact fun _ => rfl

end Agree

theorem agree {fuel fuel' : Nat} (h : fuel ≤ fuel') : Agree fuel fuel' := by
  induction fuel generalizing fuel' with
  | zero => exact ⟨fun hfuel => absurd hfuel (by omega), fun hfuel => absurd hfuel (by omega),
      fun hfuel => absurd hfuel (by omega)⟩
  | succ fuel ih =>
    obtain ⟨fuel', rfl⟩ := Nat.exists_eq_add_one_of_ne_zero (Nat.ne_zero_of_lt h)
    have ih : Agree fuel fuel' := ih (by omega)
    exact ⟨ih.of_value, ih.of_elements, ih.of_members⟩

/-- twice the length of the text is enough fuel: more of it changes nothing -/
theorem value_fuel {fuel : Nat} {cs : List Char} (room : Nat) (h : 2 * cs.length + 1 ≤ fuel) :
    value fuel room cs = value (2 * cs.length + 1) room cs :=
  (agree h).value le_rfl le_rfl (.inl rfl)

theorem tooDeep_of_document {room : Nat} {cs : List Char} {isMapping : Bool}
    (h : document room cs = .error (.tooDeep isMapping)) :
    value (2 * cs.length + 2) room (skipSpace cs) = .error (.tooDeep isMapping) := by
  unfold document at h
  split at h
  · cases h
  · split at h
    · rename_i hvalue
      cases h
      exact hvalue
    · split at h <;> cases h

theorem parse_eq_tooDeep_iff {room : Nat} {cs : List Char} {isMapping : Bool} :
    parse cs room = .error (.tooDeep isMapping) ↔ document room cs = .error (.tooDeep isMapping) := by
  unfold parse
  split <;> simp [*]

/-! ## Documents that are not too deep -/

/-- a character that opens a list or a mapping -/
def isOpening (c : Char) : Bool := c = '[' || c = '\x7b'

theorem countP_isOpening_le {cs rest : List Char} (h : rest <:+ cs) : rest.countP isOpening ≤ cs.countP isOpening :=
  h.sublist.countP_le

theorem shallow_ok {α : Type} (r : α × List Char) : Shallow (.ok r) := fun _ => nofun

theorem shallow_refuse {α : Type} (f : Flaw) (rest : List Char) : Shallow (refuse (α := α) f rest) := fun _ => nofun

theorem shallow_codePoint (afterBackslash digits : List Char) : Shallow (codePoint afterBackslash digits) := by
  unfold codePoint
  repeat' first | exact shallow_ok _ | exact shallow_refuse _ _ | split

theorem shallow_stringBody (start : List Char) (fuel : Nat) (done : Text) (cs : List Char) :
    Shallow (stringBody start fuel done cs) := by
  induction fuel generalizing done cs with
  | zero => exact shallow_refuse _ _
  | succ fuel ih =>
    unfold stringBody
    split
    · exact shallow_refuse _ _
    · exact shallow_ok _
    · split
      · exact shallow_refuse _ _
      · split
        · rename_i hpoint
          exact fun m hm => shallow_codePoint _ _ m (hpoint.trans (by cases hm; rfl))
        · exact ih _ _
      · split
        · exact shallow_refuse _ _
        · exact ih _ _
    · split
      · exact shallow_refuse _ _
      · exact ih _ _

theorem shallow_number (negative : Bool) (start cs : List Char) : Shallow (number negative start cs) := by
  unfold number
  dsimp only
  split
  · exact shallow_refuse _ _
  · split
    · exact shallow_ok _
    · split
      · exact fun _ => nofun
      · exact shallow_ok _

theorem shallow_scalar (cs : List Char) : Shallow (scalar cs) := by
  unfold scalar
  split
  all_goals first | exact shallow_ok _ | exact shallow_number _ _ _

/-- with this fuel the readers do not give out on texts that have no more opening brackets than there is room -/
structure HaveRoom (fuel : Nat) : Prop where
  value : ∀ {room : Nat} {cs : List Char}, cs.countP isOpening ≤ room → Shallow (value fuel room cs)
  elements : ∀ {room : Nat} {done : List Value} {cs : List Char}, cs.countP isOpening ≤ room →
    Shallow (elements fuel room done cs)
  members : ∀ {room : Nat} {done : List (Value × Value)} {cs : List Char}, cs.countP isOpening ≤ room →
    Shallow (members fuel room done cs)

namespace HaveRoom

variable {fuel room : Nat} {cs : List Char}

theorem of_value (ih : HaveRoom fuel) (h : cs.countP isOpening ≤ room) : Shallow (Json.value (fuel + 1) room cs) := by
  unfold Json.value
  split
  · rename_i rest
    have hstring := shallow_stringBody ('"' :: rest) ('"' :: rest).length [] rest
    intro m hm
    cases hbody : stringBody ('"' :: rest) ('"' :: rest).length [] rest with
    | ok r =>
      rw [hbody] at hm
      cases hm
    | error e =>
      rw [hbody] at hm hstring
      cases hm
      exact hstring m rfl
  · rename_i rest
    have hrest := countP_isOpening_le (skipSpace_suffix rest)
    rw [List.countP_cons_of_pos rfl] at h
    cases room with
    | zero => omega
    | succ room =>
      dsimp only
      split
      · exact shallow_ok _
      · exact ih.elements (by omega)
  · rename_i rest
    have hrest := countP_isOpening_le (skipSpace_suffix rest)
    rw [List.countP_cons_of_pos rfl] at h
    cases room with
    | zero => omega
    | succ room =>
      dsimp only
      split
      · exact shallow_ok _
      · exact ih.members (by omega)
  · exact shallow_scalar _

theorem of_elements (ih : HaveRoom fuel) {done : List Value} (h : cs.countP isOpening ≤ room) :
    Shallow (Json.elements (fuel + 1) room done cs) := by
  unfold Json.elements
  split
  · rename_i e hvalue
    exact fun m hm => ih.value h m (hvalue.trans (by cases hm; rfl))
  · rename_i hvalue
    have hrest := countP_isOpening_le ((takesAll fuel).value hvalue).suffix
    split
    · exact shallow_ok _
    · rename_i hcomma
      have hnext := countP_isOpening_le ((skipSpace_suffix _).trans (suffix_of_skipSpace hcomma))
      exact ih.elements (by omega)
    · exact shallow_refuse _ _

theorem of_members (ih : HaveRoom fuel) {done : List (Value × Value)} (h : cs.countP isOpening ≤ room) :
    Shallow (Json.members (fuel + 1) room done cs) := by
  unfold Json.members
  split
  · split
    · rename_i e hkey
      exact fun m hm => shallow_stringBody _ _ _ _ m (hkey.trans (by cases hm; rfl))
    · rename_i hkey
      have hrest := countP_isOpening_le ((suffix_of_stringBody hkey).trans (List.suffix_cons '"' _))
      split
      · rename_i behind hcolon
        have hbehind := countP_isOpening_le ((skipSpace_suffix behind).trans (suffix_of_skipSpace hcolon))
        split
        · rename_i e hvalue
          exact fun m hm => ih.value (by omega) m (hvalue.trans (by cases hm; rfl))
        · rename_i hvalue
          have hvalue := countP_isOpening_le ((takesAll fuel).value hvalue).suffix
          dsimp only
          split
          · exact shallow_ok _
          · rename_i hcomma
            have hnext := countP_isOpening_le ((skipSpace_suffix _).trans (suffix_of_skipSpace hcomma))
            exact ih.members (by omega)
          · exact shallow_refuse _ _
      · exact shallow_refuse _ _
  · exact shallow_refuse _ _

end HaveRoom

theorem haveRoom (fuel : Nat) : HaveRoom fuel := by
  induction fuel with
  | zero => exact ⟨fun _ => shallow_refuse _ _, fun _ => shallow_refuse _ _, fun _ => shallow_refuse _ _⟩
  | succ fuel ih => exact ⟨ih.of_value, ih.of_elements, ih.of_members⟩

/-- a document that is too deep has more opening brackets than there is room -/
theorem opening_of_tooDeep {room : Nat} {cs : List Char} {isMapping : Bool}
    (h : parse cs room = .error (.tooDeep isMapping)) : room < cs.countP isOpening := by
  by_contra hroom
  have hcount := countP_isOpening_le (skipSpace_suffix cs)
  exact (haveRoom _).value (by omega) isMapping (tooDeep_of_document (parse_eq_tooDeep_iff.1 h))

theorem document_room {room room' : Nat} {cs : List Char} (hroom : room ≤ room') (h : Shallow (document room cs)) :
    document room' cs = document room cs := by
  have hlength := (skipSpace_suffix cs).length_le
  revert h
  unfold document
  split
  · exact fun _ => rfl
  · intro h
    have hvalue : Shallow (value (2 * cs.length + 2) room (skipSpace cs)) := by
      intro m hm
      refine h m ?_
      rw [hm]
    rw [(agree le_rfl).value (by omega) hroom (.inr hvalue)]

/-- a document that was not too deep is read the same with more room -/
theorem parse_room {room room' : Nat} {cs : List Char} (hroom : room ≤ room')
    (h : ∀ isMapping, parse cs room ≠ .error (.tooDeep isMapping)) : parse cs room' = parse cs room := by
  have hdocument := document_room hroom fun m hm => h m (parse_eq_tooDeep_iff.2 hm)
  unfold parse
  rw [hdocument]

/-- opening brackets and nothing else are too deep as soon as there are more of them than there is room -/
theorem value_openings (room : Nat) {fuel : Nat} (h : 2 * room < fuel) :
    value fuel room (List.replicate (room + 1) '[') = .error (.tooDeep false) := by
  obtain ⟨fuel, rfl⟩ := Nat.exists_eq_add_one_of_ne_zero (Nat.ne_zero_of_lt h)
  induction room generalizing fuel with
  | zero => rfl
  | succ room ih =>
    obtain ⟨fuel, rfl⟩ : ∃ n, fuel = n + 2 := ⟨fuel - 2, by omega⟩
    have hnext : value (fuel + 1) room (List.replicate (room + 1) '[') = .error (.tooDeep false) := ih fuel (by omega)
    have hspace : skipSpace (List.replicate (room + 1) '[') = List.replicate (room + 1) '[' := rfl
    have helements : elements (fuel + 2) room [] (List.replicate (room + 1) '[') = .error (.tooDeep false) := by
      rw [elements, hnext]
    exact helements

theorem parse_openings (room : Nat) : parse (List.replicate (room + 1) '[') room = .error (.tooDeep false) := by
  have hvalue : value (2 * (List.replicate (room + 1) '[').length + 2) room
      (skipSpace (List.replicate (room + 1) '[')) = .error (.tooDeep false) :=
    value_openings room (by rw [List.length_replicate]; omega)
  have hdocument : document room (List.replicate (room + 1) '[') = .error (.tooDeep false) := by
    unfold document
    split
    · rename_i hmark
      cases hmark
    · rw [hvalue]
  exact parse_eq_tooDeep_iff.2 hdocument

end Brainfuck.Json
