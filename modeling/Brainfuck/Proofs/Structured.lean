/-
The machine computes the structured meaning of a program.

- `Runs.arrives`: what a part of the tree comes to, the machine comes to from the place where the part stands. By
  induction on the derivation; `Segment.StandsIn` says where the index is inside nested loops.
- `covered_tree`: a run that ends has passed through every part of the tree in front of it. By induction on the tree,
  and for the rounds of a loop on the length of the run (`covered_rounds`).
- `machine_computes_tree`: without a step limit a machine ends, or stops, exactly as the tree of its program does, with
  the same tape, pointer, streams, counts and index.
-/
import Brainfuck.Device
import Brainfuck.Proofs.Trace
import Brainfuck.Proofs.Tree

namespace Brainfuck

open Brainfuck.Bracket

variable {σ τ : Type} {p : Program} {config : Config}

/-! ## Where the parts of a tree stand -/

namespace Segment.StandsIn

variable {i : Nat} {c : Command} {hc : c.IsPlain} {body rest : Tree}

theorem command (h : (tree i (.command c hc rest)).StandsIn p) :
    p.commands[i]? = some c ∧ (tree (i + 1) rest).StandsIn p :=
  ⟨Array.getElem?_toList ▸ Stands.head h, Stands.tail h⟩

theorem loop (h : (tree i (.loop body rest)).StandsIn p) :
    (rounds i body).StandsIn p ∧ (tree (i + body.size + 2) rest).StandsIn p := by
  have hsplit : (Tree.loop body rest).commands =
      (.loopStart :: (body.commands ++ [.loopEnd])) ++ rest.commands := by simp [Tree.commands]
  have hstands : Stands p.commands.toList i (.loopStart :: (body.commands ++ [.loopEnd]) ++ rest.commands) :=
    hsplit ▸ h
  have hlength : (Command.loopStart :: (body.commands ++ [.loopEnd])).length = body.size + 2 := by simp [Tree.size]
  have hrest := hstands.right
  rw [hlength] at hrest
  exact ⟨hstands.left, hrest⟩

theorem pair (h : (rounds i body).StandsIn p) : Pair p.commands.toList i (i + body.size + 1) :=
  .of_stands body.balanced h

theorem inner (h : (rounds i body).StandsIn p) : (tree (i + 1) body).StandsIn p :=
  (Stands.tail h).left

end Segment.StandsIn

theorem Segment.stop_command (i : Nat) (c : Command) (hc : c.IsPlain) (rest : Tree) :
    (Segment.tree i (.command c hc rest)).stop = (Segment.tree (i + 1) rest).stop := by
  simp only [Segment.stop, Tree.size_command]
  omega

theorem Segment.stop_loop (i : Nat) (body rest : Tree) :
    (Segment.tree i (.loop body rest)).stop = (Segment.tree (i + body.size + 2) rest).stop := by
  simp only [Segment.stop, Tree.size_loop]
  omega

theorem Segment.stop_body (i : Nat) (body : Tree) : (Segment.tree (i + 1) body).stop = i + body.size + 1 := by
  simp only [Segment.stop]
  omega

/-! ## Moves and runs -/

theorem World.Fits.tick {w : World σ τ} (h : w.Fits config) : w.tick.Fits config :=
  ⟨h.pointer_lt, h.length_le, h.growable, h.growthChunk⟩

/-- the world in which something ends or stops -/
def Outcome.world : Outcome σ τ → World σ τ
  | ended w | stopped _ _ w => w

variable [ByteSource σ] [ByteSink τ]

theorem Runs.fits {segment : Segment} {w : World σ τ} {o : Outcome σ τ} (hw : w.Fits config)
    (h : Runs config segment w o) : o.world.Fits config := by
  induction h with
  | done => exact hw
  | command he _ ih => exact ih (he.fits hw)
  | commandStop he => exact he.fits hw
  | skip _ _ ih => exact ih hw.tick
  | enter _ _ _ ihb ihr => exact ihr (ihb hw.tick)
  | enterStop _ _ ih => exact ih hw.tick
  | leave _ _ ih => exact (ih hw).tick
  | again _ _ _ ihb ihr => exact ihr (ihb hw).tick
  | bodyStop _ ih => exact ih hw

theorem Moves.lt_length {i j : Nat} {w w' : World σ τ} (h : Moves p config i w none j w') : i < p.length := by
  cases h with
  | plain _ hc _ => exact (Array.getElem?_eq_some_iff.1 hc).1
  | skip _ hpair _ | enter _ hpair _ => exact Nat.lt_trans hpair.lt hpair.lt_length
  | leave _ hpair _ | again _ hpair _ => exact hpair.lt_length

namespace Machine

omit [ByteSource σ] [ByteSink τ] in
theorem unfinished_place {i : Nat} (w : World σ τ) (hi : i < p.length) : (place p config i w).finished = false := by
  simpa [finished_place] using hi

theorem run_of_move (hp : p.WellFormed) {i j : Nat} {w w' : World σ τ} (hw : w.Fits config)
    (h : Moves p config i w none j w') (n : Nat) : (place p config i w).run (n + 1) = (place p config j w').run n :=
  run_of_step (unfinished_place w h.lt_length) (step_of_moves hp hw h) n

theorem run_of_stopping_move (hp : p.WellFormed) {i j : Nat} {w w' : World σ τ} {s : Stop} (hw : w.Fits config)
    (hi : i < p.length) (h : Moves p config i w (some s) j w') (n : Nat) :
    (place p config i w).run (n + 1) = (.stopped s, place p config j w') :=
  run_of_stop (unfinished_place w hi) (step_of_moves hp hw h) n

/-- a run that ends takes a step if the program is not finished -/
theorem exists_succ_of_run {i n : Nat} {w : World σ τ} {r : Ending × Machine σ τ} (hi : i < p.length)
    (hr : (place p config i w).run n = r) (hend : r.1 ≠ .unfinished) : ∃ k, n = k + 1 := by
  cases n with
  | zero =>
    rw [run_zero_of_unfinished (unfinished_place w hi)] at hr
    exact absurd (congrArg Prod.fst hr).symm hend
  | succ k => exact ⟨k, rfl⟩

end Machine

open Machine

/-! ## From the tree to the machine -/

/-- the machine at the index `i` comes to the outcome, at the index `e` if it is not stopped -/
def Arrives (p : Program) (config : Config) (i : Nat) (w : World σ τ) (e : Nat) : Outcome σ τ → Prop
  | .ended w' => ∃ k, ∀ n, (place p config i w).run (n + k) = (place p config e w').run n
  | .stopped s j w' => ∃ k, ∀ n, (place p config i w).run (n + k) = (.stopped s, place p config j w')

namespace Arrives

variable {i j e : Nat} {w w' : World σ τ} {o : Outcome σ τ}

theorem trans (h : Arrives p config i w j (.ended w')) (h' : Arrives p config j w' e o) :
    Arrives p config i w e o := by
  obtain ⟨k, hk⟩ := h
  cases o with
  | ended w'' =>
    obtain ⟨l, hl⟩ := h'
    exact ⟨l + k, fun n => by rw [← Nat.add_assoc, hk, hl]⟩
  | stopped s j' w'' =>
    obtain ⟨l, hl⟩ := h'
    exact ⟨l + k, fun n => by rw [← Nat.add_assoc, hk, hl]⟩

theorem of_move (hp : p.WellFormed) (hw : w.Fits config) (h : Moves p config i w none j w') :
    Arrives p config i w j (.ended w') :=
  ⟨1, run_of_move hp hw h⟩

theorem of_stopping_move (hp : p.WellFormed) (hw : w.Fits config) (hi : i < p.length) {s : Stop}
    (h : Moves p config i w (some s) j w') : Arrives p config i w e (.stopped s j w') :=
  ⟨1, run_of_stopping_move hp hw hi h⟩

end Arrives

theorem Runs.arrives (hp : p.WellFormed) (hmax : config.maxSteps = none) {segment : Segment} {w : World σ τ}
    {o : Outcome σ τ} (hs : segment.StandsIn p) (hw : w.Fits config) (h : Runs config segment w o) :
    Arrives p config segment.start w segment.stop o := by
  induction h with
  | done => exact ⟨0, fun n => rfl⟩
  | @command i c hc rest w w' o he _ ih =>
    obtain ⟨hi, hrest⟩ := hs.command
    rw [Segment.stop_command]
    have hmove : Moves p config i w none (i + 1) w' := .plain (w.allowed_of_unlimited hmax) hi he
    exact (Arrives.of_move hp hw hmove).trans (ih hrest (he.fits hw))
  | @commandStop i c hc rest w w' s he =>
    have hi := hs.command.1
    have hmove : Moves p config i w (some s) i w' := .plainStop (w.allowed_of_unlimited hmax) hi he
    exact .of_stopping_move hp hw (Array.getElem?_eq_some_iff.1 hi).1 hmove
  | @skip i body rest w o h0 _ ih =>
    obtain ⟨hrounds, hrest⟩ := hs.loop
    rw [Segment.stop_loop]
    have hmove : Moves p config i w none (i + body.size + 2) w.tick :=
      .skip (w.allowed_of_unlimited hmax) hrounds.pair h0
    exact (Arrives.of_move hp hw hmove).trans (ih hrest hw.tick)
  | @enter i body rest w w' o h0 hbody _ ihb ihr =>
    obtain ⟨hrounds, hrest⟩ := hs.loop
    rw [Segment.stop_loop]
    have hmove : Moves p config i w none (i + 1) w.tick := .enter (w.allowed_of_unlimited hmax) hrounds.pair h0
    exact ((Arrives.of_move hp hw hmove).trans (ihb hrounds hw.tick)).trans (ihr hrest (hbody.fits hw.tick))
  | @enterStop i j body rest w w' s h0 _ ih =>
    have hrounds := hs.loop.1
    have hmove : Moves p config i w none (i + 1) w.tick := .enter (w.allowed_of_unlimited hmax) hrounds.pair h0
    exact (Arrives.of_move hp hw hmove).trans (ih hrounds hw.tick)
  | @leave i body w w' hbody h0 ih =>
    have hmove : Moves p config (i + body.size + 1) w' none (i + body.size + 2) w'.tick :=
      .leave (w'.allowed_of_unlimited hmax) hs.pair h0
    have harrives := ih hs.inner hw
    rw [Segment.stop_body] at harrives
    exact harrives.trans (.of_move hp (hbody.fits hw) hmove)
  | @again i body w w' o hbody h0 _ ihb ihr =>
    have hw' : w'.Fits config := hbody.fits hw
    have hmove : Moves p config (i + body.size + 1) w' none (i + 1) w'.tick :=
      .again (w'.allowed_of_unlimited hmax) hs.pair h0
    have harrives := ihb hs.inner hw
    rw [Segment.stop_body] at harrives
    exact (harrives.trans (.of_move hp hw' hmove)).trans (ihr hs hw'.tick)
  | bodyStop _ ih => exact ih hs.inner hw

/-! ## From the machine to the tree -/

/-- a run of `n` steps with the result `r` goes on from the outcome, at the index `e` if that is no stop -/
def GoesOn (p : Program) (config : Config) (e n : Nat) (r : Ending × Machine σ τ) : Outcome σ τ → Prop
  | .ended w => ∃ k ≤ n, (place p config e w).run k = r
  | .stopped s j w => r = (.stopped s, place p config j w)

theorem GoesOn.mono {e n n' : Nat} {r : Ending × Machine σ τ} {o : Outcome σ τ} (hn : n ≤ n')
    (h : GoesOn p config e n r o) : GoesOn p config e n' r o := by
  cases o with
  | ended w =>
    obtain ⟨k, hk, hrun⟩ := h
    exact ⟨k, Nat.le_trans hk hn, hrun⟩
  | stopped s j w => exact h

/-- every run that ends, from the start of the segment, has an outcome of the segment on its way -/
def Covered (σ τ : Type) [ByteSource σ] [ByteSink τ] (p : Program) (config : Config) (segment : Segment) : Prop :=
  ∀ (n : Nat) (w : World σ τ) (r : Ending × Machine σ τ), w.Fits config →
    (place p config segment.start w).run n = r → r.1 ≠ .unfinished →
    ∃ o, Runs config segment w o ∧ GoesOn p config segment.stop n r o

/-- the rounds of a loop, by induction on the length of the run -/
theorem covered_rounds (hp : p.WellFormed) (hmax : config.maxSteps = none) {i : Nat} {body : Tree}
    (hs : (Segment.rounds i body).StandsIn p) (hbody : Covered σ τ p config (.tree (i + 1) body)) :
    Covered σ τ p config (.rounds i body) := by
  intro n
  induction n using Nat.strong_induction_on with
  | _ n ih =>
    intro w r hw hr hend
    obtain ⟨o, hruns, hgoes⟩ := hbody n w r hw hr hend
    cases o with
    | stopped s j w' => exact ⟨_, .bodyStop hruns, hgoes⟩
    | ended w' =>
      have hw' : w'.Fits config := hruns.fits hw
      obtain ⟨k, hk, hr'⟩ := hgoes
      rw [Segment.stop_body] at hr'
      -- the test at the loop end takes a step, so what is left of the run is shorter
      obtain ⟨k, rfl⟩ := exists_succ_of_run hs.pair.lt_length hr' hend
      by_cases h0 : w'.cell = 0
      · rw [run_of_move hp hw' (.leave (w'.allowed_of_unlimited hmax) hs.pair h0)] at hr'
        exact ⟨_, .leave hruns h0, k, Nat.le_of_succ_le hk, hr'⟩
      · rw [run_of_move hp hw' (.again (w'.allowed_of_unlimited hmax) hs.pair h0)] at hr'
        obtain ⟨o, hagain, hgoes⟩ := ih k hk w'.tick r hw'.tick hr' hend
        exact ⟨o, .again hruns h0 hagain, hgoes.mono (Nat.le_of_succ_le hk)⟩

/-- a tree, by induction on it -/
theorem covered_tree (hp : p.WellFormed) (hmax : config.maxSteps = none) {i : Nat} {t : Tree}
    (hs : (Segment.tree i t).StandsIn p) : Covered σ τ p config (.tree i t) := by
  induction t generalizing i with
  | done =>
    intro n w r _ hr _
    exact ⟨_, .done, n, Nat.le_refl n, hr⟩
  | command c hc rest ih =>
    intro n w r hw hr hend
    obtain ⟨hi, hrest⟩ := hs.command
    have hlt : i < p.length := (Array.getElem?_eq_some_iff.1 hi).1
    obtain ⟨k, rfl⟩ := exists_succ_of_run hlt hr hend
    obtain ⟨stop, w', he⟩ := exists_effect hw i hc
    have hallowed := w.allowed_of_unlimited hmax
    cases stop with
    | some s =>
      rw [← hr]
      exact ⟨_, .commandStop he, run_of_stopping_move hp hw hlt (.plainStop hallowed hi he) k⟩
    | none =>
      have hr' := (run_of_move hp hw (.plain hallowed hi he) k).symm.trans hr
      obtain ⟨o, hruns, hgoes⟩ := ih hrest k w' r (he.fits hw) hr' hend
      rw [Segment.stop_command]
      exact ⟨o, .command he hruns, hgoes.mono (Nat.le_succ k)⟩
  | loop body rest ihb ihr =>
    intro n w r hw hr hend
    obtain ⟨hrounds, hrest⟩ := hs.loop
    have hlt : i < p.length := Nat.lt_trans hrounds.pair.lt hrounds.pair.lt_length
    obtain ⟨k, rfl⟩ := exists_succ_of_run hlt hr hend
    have hallowed := w.allowed_of_unlimited hmax
    rw [Segment.stop_loop]
    by_cases h0 : w.cell = 0
    · have hr' := (run_of_move hp hw (.skip hallowed hrounds.pair h0) k).symm.trans hr
      obtain ⟨o, hruns, hgoes⟩ := ihr hrest k w.tick r hw.tick hr' hend
      exact ⟨o, .skip h0 hruns, hgoes.mono (Nat.le_succ k)⟩
    · have hr' := (run_of_move hp hw (.enter hallowed hrounds.pair h0) k).symm.trans hr
      obtain ⟨o, hruns, hgoes⟩ :=
        covered_rounds hp hmax hrounds (ihb hrounds.inner) k w.tick r hw.tick hr' hend
      cases o with
      | stopped s j w' => exact ⟨_, .enterStop h0 hruns, hgoes⟩
      | ended w' =>
        -- the rounds are over, and the run goes on behind the loop
        obtain ⟨l, hl, hr''⟩ := hgoes
        obtain ⟨o, hruns', hgoes⟩ := ihr hrest l w' r (hruns.fits hw.tick) hr'' hend
        exact ⟨o, .enter h0 hruns hruns', hgoes.mono (Nat.le_succ_of_le hl)⟩

/-! ## Whole programs -/

/-- the tree of a whole program -/
structure IsTree (p : Program) (t : Tree) : Prop where
  commands : t.commands = p.commands.toList
  unique : ∀ other : Tree, other.commands = p.commands.toList → other = t

theorem Program.WellFormed.exists_tree (hp : p.WellFormed) : ∃ t, IsTree p t := by
  obtain ⟨t, ht, hunique⟩ := Tree.existsUnique hp.balanced
  exact ⟨t, ht, hunique⟩

namespace IsTree

variable {t : Tree}

theorem standsIn (h : IsTree p t) : (Segment.tree 0 t).StandsIn p := by
  change Stands p.commands.toList 0 t.commands
  rw [h.commands]
  exact .self

theorem stop_eq (h : IsTree p t) : (Segment.tree 0 t).stop = p.length := by
  simp [Segment.stop, Tree.size, h.commands, Program.length]

theorem finished_iff (h : IsTree p t) (hp : p.WellFormed) (hmax : config.maxSteps = none) {w : World σ τ}
    (hw : w.Fits config) (m : Machine σ τ) :
    (∃ n, (place p config 0 w).run n = (.finished, m)) ↔
      ∃ w', Runs config (.tree 0 t) w (.ended w') ∧ m = place p config p.length w' := by
  have hfin : ∀ w' : World σ τ, (place p config p.length w').finished = true := by simp [finished_place]
  constructor
  · rintro ⟨n, hn⟩
    obtain ⟨o, hruns, hgoes⟩ := covered_tree hp hmax h.standsIn n w _ hw hn (by simp)
    cases o with
    | ended w' =>
      obtain ⟨k, -, hk⟩ := hgoes
      rw [h.stop_eq, run_of_finished (hfin w')] at hk
      exact ⟨w', hruns, (congrArg Prod.snd hk).symm⟩
    | stopped s j w' => exact absurd (congrArg Prod.fst hgoes) (by simp)
  · rintro ⟨w', hruns, rfl⟩
    obtain ⟨k, hk⟩ := hruns.arrives hp hmax h.standsIn hw
    refine ⟨0 + k, (hk 0).trans ?_⟩
    rw [h.stop_eq, run_of_finished (hfin w')]

theorem stopped_iff (h : IsTree p t) (hp : p.WellFormed) (hmax : config.maxSteps = none) {w : World σ τ}
    (hw : w.Fits config) (s : Stop) (m : Machine σ τ) :
    (∃ n, (place p config 0 w).run n = (.stopped s, m)) ↔
      ∃ i w', Runs config (.tree 0 t) w (.stopped s i w') ∧ m = place p config i w' := by
  constructor
  · rintro ⟨n, hn⟩
    obtain ⟨o, hruns, hgoes⟩ := covered_tree hp hmax h.standsIn n w _ hw hn (by simp)
    cases o with
    | ended w' =>
      obtain ⟨k, -, hk⟩ := hgoes
      rw [h.stop_eq, run_of_finished (by simp [finished_place])] at hk
      exact absurd (congrArg Prod.fst hk) (by simp)
    | stopped s' j w' =>
      simp only [GoesOn, Prod.mk.injEq, Ending.stopped.injEq] at hgoes
      obtain ⟨rfl, rfl⟩ := hgoes
      exact ⟨j, w', hruns, rfl⟩
  · rintro ⟨i, w', hruns, rfl⟩
    obtain ⟨k, hk⟩ := hruns.arrives hp hmax h.standsIn hw
    exact ⟨0 + k, hk 0⟩

end IsTree

/-- **The machine computes the tree.** Without a step limit, the machine that a session prepares for a parsed program
finishes in a state exactly if the tree of the program ends there, behind the last command, and it stops in a state for
a reason exactly if the tree is stopped for this reason there, at the index of the command that failed. -/
theorem machine_computes_tree (s : Session σ τ) (hmax : s.config.maxSteps = none) (job : Job) (hjob : job.Parsed)
    (m : Machine σ τ) (hm : s.prepare job = .ok m) :
    ∃ t, IsTree m.program t ∧
      (∀ m', (∃ n, m.run n = (.finished, m')) ↔
        ∃ w, Runs s.config (.tree 0 t) (.initial s.config s.feed.source s.sink) (.ended w) ∧
          m' = .place m.program s.config m.program.length w) ∧
      ∀ stop m', (∃ n, m.run n = (.stopped stop, m')) ↔
        ∃ i w, Runs s.config (.tree 0 t) (.initial s.config s.feed.source s.sink) (.stopped stop i w) ∧
          m' = .place m.program s.config i w := by
  obtain ⟨p, hp, rfl⟩ := Session.exists_place_of_prepare hjob hm
  obtain ⟨t, ht⟩ := hp.exists_tree
  have hfits := World.fits_initial s.config s.feed.source s.sink
  exact ⟨t, ht, ht.finished_iff hp hmax hfits, ht.stopped_iff hp hmax hfits⟩

/-- two rounds of a loop -/
theorem machine_computes_tree_countdown : ∃ (m m' : Machine Source Sink) (t : Tree) (w : World Source Sink),
    (Session.start default (.replayed (.buffer [2])) (.buffer #[])).prepare (.script (.text ",[-]")) = .ok m ∧
    m.run 6 = (.finished, m') ∧ IsTree m.program t ∧
    Runs default (.tree 0 t) (.initial default (.buffer [2]) (.buffer #[])) (.ended w) ∧
    m' = .place m.program default 4 w ∧ w.steps = 6 := by
  obtain ⟨t, ht, hfinished, -⟩ :=
    machine_computes_tree (.start default (.replayed (.buffer [2])) (.buffer #[]) : Session Source Sink) rfl
      (.script (.text ",[-]")) trivial _ rfl
  obtain ⟨w, hruns, hw⟩ := (hfinished _).1 ⟨6, rfl⟩
  exact ⟨_, _, t, w, rfl, rfl, ht, hruns, hw, (congrArg Machine.steps hw).symm⟩

end Brainfuck
