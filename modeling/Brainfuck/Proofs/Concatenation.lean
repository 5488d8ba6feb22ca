/-
One program after another.

- `Script.Joins s₁ s₂ s`: `s` is `s₁` and then `s₂`, both texts or both bytes.
- `Bracket.partners_append_iff`: brackets of two balanced sequences, one after the other, are partners exactly if they
  are in one of them. So the table of the whole is made of both tables (`isTable_append`).
- `Program.append`: the program of the whole. `parse_append`: parsing gives it, or blames the bracket that is blamed in
  the second script.
- `RunsAfter`: the run of the whole is that of the first program and then that of the second one, from where the first
  one has come to; its indices are shifted.
- `concatenation_parses_and_runs`: both, for all scripts and sessions.
-/
import Brainfuck.Device
import Brainfuck.Proofs.Blame
import Brainfuck.Proofs.Parts

namespace Brainfuck

open Brainfuck.Bracket

/-- the third script is the first one and then the second one -/
inductive Script.Joins : Script → Script → Script → Prop where
  | text (a b : String) : Joins (.text a) (.text b) (.text (a ++ b))
  | bytes (a b : List UInt8) : Joins (.bytes a) (.bytes b) (.bytes (a ++ b))

theorem Script.Joins.chars_eq {s₁ s₂ s : Script} (h : Joins s₁ s₂ s) : s.chars = s₁.chars ++ s₂.chars := by
  cases h with
  | text a b => exact String.toList_append
  | bytes a b => exact Utf8.oneCharPerByte_append a b

/-! ## Brackets -/

namespace Bracket

variable {a b commands : List Command} {i j k : Nat}

theorem Partners.not_isPlain (h : Partners commands i j) {c : Command} (hc : commands[i]? = some c) : ¬ c.IsPlain := by
  rcases h with h | h
  · rw [h.start] at hc
    cases hc
    decide
  · rw [h.stop] at hc
    cases hc
    decide

/-- a bracket has one partner only -/
theorem Partners.unique (h : Partners commands i j) (h' : Partners commands i k) : j = k := by
  rcases h with h | h <;> rcases h' with h' | h'
  · exact h.stop_unique h'
  · exact absurd rfl (h.start_ne_stop h')
  · exact absurd rfl (h'.start_ne_stop h)
  · exact h.start_unique h'

theorem Partners.exists_command (h : Partners commands i j) : ∃ c, commands[i]? = some c ∧ ¬ c.IsPlain := by
  obtain ⟨c, hc⟩ : ∃ c, commands[i]? = some c := ⟨_, List.getElem?_eq_getElem h.lt_length⟩
  exact ⟨c, hc, h.not_isPlain hc⟩

/-- partners in one sequence after another are partners in one of them -/
theorem partners_append_iff (ha : Balanced a) (hb : Balanced b) : Partners (a ++ b) i j ↔
    Partners a i j ∨ ∃ i' j', i = a.length + i' ∧ j = a.length + j' ∧ Partners b i' j' := by
  have hfront : ∀ {i j}, Partners a i j → Partners (a ++ b) i j := by
    intro i j h
    simpa using h.within [] b
  have hback : ∀ {i j}, Partners b i j → Partners (a ++ b) (a.length + i) (a.length + j) := by
    intro i j h
    simpa using h.within a []
  constructor
  · intro h
    obtain ⟨c, hc, hbracket⟩ := h.exists_command
    rcases Nat.lt_or_ge i a.length with hi | hi
    · -- the bracket has a partner in the front part, and no other
      rw [List.getElem?_append_left hi] at hc
      obtain ⟨k, hk⟩ := ha.exists_partner hc hbracket
      rw [h.unique (hfront hk)]
      exact .inl hk
    · obtain ⟨i', rfl⟩ := Nat.exists_eq_add_of_le hi
      rw [List.getElem?_append_right hi, Nat.add_sub_cancel_left] at hc
      obtain ⟨k, hk⟩ := hb.exists_partner hc hbracket
      exact .inr ⟨i', k, rfl, h.unique (hback hk), hk⟩
  · rintro (h | ⟨i', j', rfl, rfl, h⟩)
    · exact hfront h
    · exact hback h

end Bracket

/-! ## Programs -/

/-- a bracket table with every partner `n` commands later -/
def shiftTable (n : Nat) (table : Array (Option Nat)) : Array (Option Nat) := table.map (Option.map (n + ·))

/-- the program of a text of this length and then of another one -/
def Program.append (length : Nat) (p q : Program) : Program where
  commands := p.commands ++ q.commands
  positions := p.positions ++ q.positions.map (length + ·)
  table := p.table.bind fun t => q.table.map fun t' => t ++ shiftTable p.length t'

theorem isTable_append {a b : List Command} {t t' : Array (Option Nat)} (ha : Balanced a) (hb : Balanced b)
    (ht : IsTable a t) (ht' : IsTable b t') : IsTable (a ++ b) (t ++ shiftTable a.length t') := by
  apply IsTable.of_entry_iff (ha.append hb)
  · simp [shiftTable, ht.size, ht'.size]
  · intro i j
    rw [partners_append_iff ha hb, Array.getElem?_append, ht.size]
    split
    · rename_i hi
      rw [ht.entry_iff ha]
      constructor
      · exact .inl
      · rintro (h | ⟨i', j', rfl, -, -⟩)
        · exact h
        · exact absurd hi (Nat.not_lt.2 (Nat.le_add_right _ _))
    · rename_i hi
      obtain ⟨i', rfl⟩ := Nat.exists_eq_add_of_le (Nat.not_lt.1 hi)
      rw [Nat.add_sub_cancel_left, shiftTable, Array.getElem?_map]
      constructor
      · intro h
        obtain ⟨entry, hentry, hj⟩ := Option.map_eq_some_iff.1 h
        obtain ⟨j', rfl, rfl⟩ := Option.map_eq_some_iff.1 hj
        exact .inr ⟨i', j', rfl, rfl, (ht'.entry_iff hb).1 hentry⟩
      · rintro (h | ⟨i'', j', hi', rfl, h⟩)
        · exact absurd h.lt_length (Nat.not_lt.2 (Nat.le_add_right _ _))
        · obtain rfl := Nat.add_left_cancel hi'
          rw [(ht'.entry_iff hb).2 h]
          rfl

namespace Program

theorem located_append (a b : List Char) :
    located (a ++ b) = located a ++ (located b).map fun x => (a.length + x.1, x.2) := by
  have hshift : b.zipIdx (0 + a.length) = b.zipIdx.map fun x => (x.1, a.length + x.2) := by
    rw [Nat.zero_add]
    exact List.zipIdx_eq_map_add
  simp only [located, List.zipIdx_append, List.filterMap_append, hshift, List.filterMap_map, List.map_filterMap]
  congr 2
  funext x
  simp only [Function.comp, Option.map_map]
  rfl

theorem offsets_append (a b : List Char) : offsets (a ++ b) = offsets a ++ (offsets b).map (a.length + ·) := by
  simp only [offsets, located_append, List.map_append, List.map_map]
  rfl

/-- the program of one balanced text after another -/
theorem parse_append {s₁ s₂ s : Script} (hs : s.chars = s₁.chars ++ s₂.chars) {b : Bool} {p₁ p₂ : Program}
    (h₁ : parse s₁ b = .ok p₁) (h₂ : parse s₂ b = .ok p₂) : parse s b = .ok (append s₁.chars.length p₁ p₂) := by
  obtain ⟨l₁, hl₁, hpending₁, rfl⟩ := parse_eq_ok_iff.1 h₁
  obtain ⟨l₂, hl₂, hpending₂, rfl⟩ := parse_eq_ok_iff.1 h₂
  have hb₁ := balanced_iff_link.2 ⟨l₁, hl₁, hpending₁⟩
  have hb₂ := balanced_iff_link.2 ⟨l₂, hl₂, hpending₂⟩
  obtain ⟨l, hl, hpending⟩ := balanced_iff_link.1 (hb₁.append hb₂)
  have htable : l.table = l₁.table ++ shiftTable (commandsOf s₁.chars).length l₂.table :=
    (isTable_append hb₁ hb₂ (isTable_of_link hl₁ hpending₁) (isTable_of_link hl₂ hpending₂)).unique
      (isTable_of_link hl hpending) (hb₁.append hb₂)
  rw [← commandsOf_append, ← hs] at hl
  refine parse_eq_ok_iff.2 ⟨l, hl, hpending, ?_⟩
  have hcommands : commandsOf s.chars = commandsOf s₁.chars ++ commandsOf s₂.chars := by rw [hs, commandsOf_append]
  have hoffsets : offsets s.chars = offsets s₁.chars ++ (offsets s₂.chars).map (s₁.chars.length + ·) := by
    rw [hs, offsets_append]
  cases b <;> simp [append, length, hcommands, hoffsets, htable]

end Program

/-- what parsing one script after another comes to, given what parsing the second one comes to: the program of both, or
the same bracket is blamed, as far behind the first script as it stands in the second one -/
inductive ParsesAfter (s₁ s : Script) (p₁ : Program) :
    Except ParseError Program → Except ParseError Program → Prop where
  | parsed {p₂ : Program} : ParsesAfter s₁ s p₁ (.ok p₂) (.ok (.append s₁.chars.length p₁ p₂))
  | refused {e : ParseError} : ParsesAfter s₁ s p₁ (.error e)
      (.error ⟨e.bracket, .of s.chars (s₁.chars.length + e.place.position)⟩)

theorem parsesAfter {s₁ s₂ s : Script} (hs : s.chars = s₁.chars ++ s₂.chars) {b : Bool} {p₁ : Program}
    (h₁ : Program.parse s₁ b = .ok p₁) :
    ParsesAfter s₁ s p₁ (Program.parse s₂ b) (Program.parse s b) := by
  have hb₁ : Balanced (commandsOf s₁.chars) := by
    obtain ⟨l, hl, hpending, -⟩ := Program.parse_eq_ok_iff.1 h₁
    exact balanced_iff_link.2 ⟨l, hl, hpending⟩
  rcases Program.parse_outcome s₂ b with ⟨⟨p₂, h₂⟩, -⟩ | ⟨x, y, hcut, hx, h₂⟩ | ⟨x, y, hcut, hx, hy, h₂⟩
  · rw [h₂, Program.parse_append hs h₁ h₂]
    exact .parsed
  · have hfront : Balanced (commandsOf (s₁.chars ++ x)) := by
      rw [commandsOf_append]
      exact hb₁.append hx
    rw [hcut, ← List.append_assoc] at hs
    rw [h₂, parse_of_stray hs hfront, List.length_append]
    exact .refused
  · have hfront : Balanced (commandsOf (s₁.chars ++ x)) := by
      rw [commandsOf_append]
      exact hb₁.append hx
    rw [hcut, ← List.append_assoc] at hs
    rw [h₂, parse_of_open hs hfront hy, List.length_append]
    exact .refused

/-! ## Runs -/

variable {σ τ : Type} [ByteSource σ] [ByteSink τ]

/-- `m` runs as `m₁` does, and after the end of it as `p₂` does from there: it goes through the states of `m₁`, stops
where `m₁` stops and goes on for ever if `m₁` does; if `m₁` is finished, it goes on through the states of `p₂`, at
indices that are shifted by the commands of `m₁`, and ends where `p₂` ends -/
structure RunsAfter (m₁ : Machine σ τ) (p₂ : Program) (m : Machine σ τ) : Prop where
  front : ∀ k, m₁.Dispatches k → m.Dispatches k ∧ m.after k = (m₁.after k).inside m.program 0
  stops : ∀ k s, m₁.Ends k (.stopped s) → m.Ends k (.stopped s) ∧ m.after k = (m₁.after k).inside m.program 0
  diverges : (∀ k e, ¬ m₁.Ends k e) → ∀ k e, ¬ m.Ends k e
  back : ∀ k, m₁.Ends k .finished → ∀ l,
    m.after (k + l) = (((m₁.after k).restart p₂).after l).inside m.program m₁.program.length ∧
      (m.after (k + l)).step.1 =
        (((m₁.after k).restart p₂).after l).step.1.map (Stop.shift m₁.program.length)
  ends : ∀ k, m₁.Ends k .finished → ∀ l e',
    m.Ends (k + l) e' ↔ ∃ e, ((m₁.after k).restart p₂).Ends l e ∧ e' = e.shift m₁.program.length

namespace Machine

variable {p p₁ p₂ : Program} {c : Config} {i k : Nat} {w : World σ τ}

/-- a finished program has its index behind its last command -/
theorem Ends.exists_place (hp : p.WellFormed) (hw : w.Fits c) (hi : i ≤ p.length)
    (h : (place p c i w).Ends k .finished) :
    ∃ w', w'.Fits c ∧ (place p c i w).after k = place p c p.length w' := by
  obtain ⟨j, w', hk, hw', hj⟩ := exists_after hp (P := fun j _ => j ≤ p.length) hw hi
    (fun _ _ _ _ _ hmove hle => hmove.le_length hle) k
  cases h with
  | finished _ hend =>
    rw [hk, finished_place, decide_eq_true_eq] at hend
    obtain rfl : j = p.length := Nat.le_antisymm hj hend
    exact ⟨w', hw', hk⟩

theorem runsAfter_place (hp : p.WellFormed) (hp₁ : p₁.WellFormed) (hp₂ : p₂.WellFormed)
    (hc : p.commands = p₁.commands ++ p₂.commands) (hw : w.Fits c) :
    RunsAfter (place p₁ c 0 w) p₂ (place p c 0 w) := by
  have hfront : p.Part p₁ 0 := ⟨[], p₂.commands.toList, by rw [hc, Array.toList_append, List.nil_append], rfl⟩
  have hback : p.Part p₂ p₁.length :=
    ⟨p₁.commands.toList, [], by rw [hc, Array.toList_append, List.append_nil], Array.length_toList⟩
  have hlast : p.length = p₁.length + p₂.length := by
    rw [Program.length, hc, Array.size_append, Program.length, Program.length]
  have hdispatches : ∀ k, (place p₁ c 0 w).Dispatches k → Carries p 0 (place p₁ c 0 w) (place p c 0 w) k :=
    fun k h => h.carries (i := 0) hp hp₁ hfront hw
  -- the second program begins where the first one has ended
  have hstart : ∀ k, (place p₁ c 0 w).Ends k .finished → (place p c 0 w).Dispatches k ∧
      ∀ l, Carries p p₁.length (((place p₁ c 0 w).after k).restart p₂) ((place p c 0 w).after k) l := by
    intro k h
    obtain ⟨w', hw', hk⟩ := Ends.exists_place hp₁ hw (Nat.zero_le _) h
    have hcarries := Ends.carries (i := 0) hp hp₁ hfront hw h
    refine ⟨?_, fun l => ?_⟩
    · cases h with
      | finished hdispatches _ => exact hcarries.dispatches hdispatches
    · have hmid : (place p c 0 w).after k = place p c (p₁.length + 0) w' := by
        calc (place p c 0 w).after k
            = ((place p₁ c 0 w).after k).inside p 0 := hcarries.after k (Nat.le_refl k)
          _ = place p c (0 + p₁.length) w' := by rw [hk]; rfl
          _ = place p c (p₁.length + 0) w' := by rw [Nat.zero_add, Nat.add_zero]
      rw [hk, hmid]
      exact carries_place (i := 0) hp hp₂ hback hw' fun _ _ => .inr hlast
  constructor
  · intro k h
    exact ⟨(hdispatches k h).dispatches h, (hdispatches k h).after k (Nat.le_refl k)⟩
  · intro k s h
    have hcarries := Ends.carries (i := 0) hp hp₁ hfront hw h
    have hends := hcarries.ends h
    rw [Stop.shift_zero] at hends
    exact ⟨hends, hcarries.after k (Nat.le_refl k)⟩
  · exact Carries.not_ends hdispatches
  · intro k h l
    obtain ⟨-, hcarries⟩ := hstart k h
    rw [after_add]
    exact ⟨(hcarries l).after l (Nat.le_refl l), (hcarries (l + 1)).stops l (Nat.lt_succ_self l)⟩
  · intro k h l e'
    obtain ⟨hk, hcarries⟩ := hstart k h
    rw [ends_add_iff hk]
    exact Carries.ends_iff hlast hcarries l

end Machine

/-- **Parsing and running respect concatenation.** If the first script is a program, a script that begins with it is one
exactly if the rest is; its commands, offsets and table are those of both, the second ones shifted, and otherwise the
bracket that is blamed is the one that is blamed in the rest. Every session runs it as the first program, and after the
end of that as the second one, on the tape, the streams and the counts that the first one has left. -/
theorem concatenation_parses_and_runs (s₁ s₂ s : Script) (hs : Script.Joins s₁ s₂ s) :
    (∀ b p₁, Program.parse s₁ b = .ok p₁ → ParsesAfter s₁ s p₁ (Program.parse s₂ b) (Program.parse s b)) ∧
    ∀ (session : Session σ τ) (p₁ p₂ : Program), Program.parse s₁ session.config.precomputeJumps = .ok p₁ →
      Program.parse s₂ session.config.precomputeJumps = .ok p₂ → ∃ m₁ m,
        session.prepare (.script s₁) = .ok m₁ ∧ session.prepare (.script s) = .ok m ∧ m₁.program = p₁ ∧
          RunsAfter m₁ p₂ m := by
  have hchars := hs.chars_eq
  constructor
  · intro b p₁ h₁
    exact parsesAfter hchars h₁
  · intro session p₁ p₂ h₁ h₂
    have h := Program.parse_append hchars h₁ h₂
    have hruns := Machine.runsAfter_place (Program.wellFormed_of_parse h) (Program.wellFormed_of_parse h₁)
      (Program.wellFormed_of_parse h₂) rfl (World.fits_initial session.config session.feed.source session.sink)
    exact ⟨_, _, session.prepare_eq_place h₁, session.prepare_eq_place h, rfl, hruns⟩

/-- a stray loop end behind two characters, and a move to the left behind two commands, of which the index is named -/
theorem concatenation_parses_and_runs_left_of_zero :
    (∃ e, Program.parse (.text "]") true = .error e ∧ e.place.position = 0 ∧
      Program.parse (.text ("é+" ++ "]")) true = .error ⟨.loopEnd, ⟨2, 1, 3⟩⟩) ∧
    ∃ (s : Session Source Sink) (m₁ m : Machine Source Sink) (p₂ : Program),
      s.prepare (.script (.text ",+")) = .ok m₁ ∧ Program.parse (.text "<") true = .ok p₂ ∧
      s.prepare (.script (.text (",+" ++ "<"))) = .ok m ∧ m₁.Ends 2 .finished ∧
      ((m₁.after 2).restart p₂).Ends 1 (.stopped (.error ⟨.tapeUnderflow, 0, 0⟩)) ∧
      m.Ends (2 + 1) (.stopped (.error ⟨.tapeUnderflow, 2, 0⟩)) := by
  constructor
  · obtain ⟨hparses, -⟩ := concatenation_parses_and_runs (σ := Source) (τ := Sink) _ _ _ (.text "é+" "]")
    have hrefused : Program.parse (.text "]") true = .error ⟨.loopEnd, ⟨0, 1, 1⟩⟩ := by decide
    have hboth := hparses true _ rfl
    rw [hrefused] at hboth
    generalize hwhole : Program.parse (.text ("é+" ++ "]")) true = r at hboth ⊢
    cases hboth with
    | refused => exact ⟨_, hrefused, rfl, rfl⟩
  · let s : Session Source Sink := .start { tapeLength := 1 } (.replayed (.buffer [7])) (.buffer #[])
    obtain ⟨-, hruns⟩ := concatenation_parses_and_runs (σ := Source) (τ := Sink) _ _ _ (.text ",+" "<")
    obtain ⟨p₂, hp₂⟩ : ∃ p₂, Program.parse (.text "<") true = .ok p₂ := ⟨_, rfl⟩
    obtain ⟨m₁, m, hm₁, hm, -, hafter⟩ := hruns s _ p₂ rfl hp₂
    have hlength : m₁.program.length = 2 := by
      cases hm₁
      rfl
    have hfirst : m₁.Ends 2 .finished := by
      cases hm₁
      refine .finished (fun n hn => ?_) (by decide +kernel)
      interval_cases n <;> exact ⟨by decide +kernel, by decide +kernel⟩
    have hsecond : ((m₁.after 2).restart p₂).Ends 1 (.stopped (.error ⟨.tapeUnderflow, 0, 0⟩)) := by
      cases hm₁
      cases hp₂
      exact .stopped (fun n hn => absurd hn (Nat.not_lt_zero n)) (by decide +kernel) (by decide +kernel)
    refine ⟨s, m₁, m, p₂, hm₁, hp₂, hm, hfirst, hsecond, (hafter.ends 2 hfirst 1 _).2 ⟨_, hsecond, ?_⟩⟩
    rw [hlength]
    rfl

end Brainfuck
