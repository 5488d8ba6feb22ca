/-
Strict options only refuse.

- `Config.Relaxes kind c d`: one option is strict in `c` and lenient in `d`, and all others are the same. Errors of the
  kind come from the strict option only.
- `Machine.Refuses m kind e`: the next command is one that the strict option does not allow: an increment of a cell of
  255, a decrement of a cell of 0, or an input at the end of the source.
- `Effect.relax`, `Moves.relax`: what is not refused is the same under both. By induction so are all states up to the
  first refusal (`Machine.after_relax`). A strict machine fails with an error of the kind exactly in the states that
  refuse (`Machine.refuses_iff`), and the lenient one goes on there (`Machine.step_of_refuses`).
- `strict_options_only_refuse`: both options, for all prepared machines. A run in which nothing is refused is the same.
-/
import Brainfuck.Device
import Brainfuck.Proofs.Lockstep
import Brainfuck.Proofs.Simulation

namespace Brainfuck

variable {σ τ : Type} {p : Program} {c d : Config} {kind : ErrorKind} {w w' : World σ τ} {i j : Nat}
  {stop : Option Stop} {e : ExecutionError}

/-! ## Strict and lenient -/

/-- the second configuration is the first one with a strict option made lenient; errors of the kind are what it saves -/
inductive Config.Relaxes : ErrorKind → Config → Config → Prop where
  | wrapping {c : Config} : c.wrappingCells = false → Relaxes .cellOverflow c { c with wrappingCells := true }
  | eofPolicy {c : Config} {policy : EofPolicy} : c.eofPolicy = .error → policy ≠ .error →
      Relaxes .inputExhausted c { c with eofPolicy := policy }

namespace Config.Relaxes

theorem allowGrowth (h : Relaxes kind c d) : d.allowGrowth = c.allowGrowth := by cases h <;> rfl

theorem maxSteps (h : Relaxes kind c d) : d.maxSteps = c.maxSteps := by cases h <;> rfl

theorem precomputeJumps (h : Relaxes kind c d) : d.precomputeJumps = c.precomputeJumps := by cases h <;> rfl

theorem flushOutput (h : Relaxes kind c d) : d.flushOutput = c.flushOutput := by cases h <;> rfl

theorem benchExecution (h : Relaxes kind c d) : d.benchExecution = c.benchExecution := by cases h <;> rfl

theorem eofValue (h : Relaxes kind c d) : d.eofValue = c.eofValue := by cases h <;> rfl

theorem wrappingCells_eq (h : Relaxes kind c d) (hkind : kind ≠ .cellOverflow) :
    d.wrappingCells = c.wrappingCells := by
  cases h with
  | wrapping => exact absurd rfl hkind
  | eofPolicy => rfl

theorem eofPolicy_eq (h : Relaxes kind c d) (hkind : kind ≠ .inputExhausted) : d.eofPolicy = c.eofPolicy := by
  cases h with
  | wrapping => rfl
  | eofPolicy => exact absurd rfl hkind

theorem cells (h : Relaxes .cellOverflow c d) : c.wrappingCells = false ∧ d.wrappingCells = true := by
  cases h with
  | wrapping hstrict => exact ⟨hstrict, rfl⟩

theorem policies (h : Relaxes .inputExhausted c d) : c.eofPolicy = .error ∧ d.eofPolicy ≠ .error := by
  cases h with
  | eofPolicy hstrict hpolicy => exact ⟨hstrict, hpolicy⟩

/-- the kind of error is one of the two -/
theorem kind_eq (h : Relaxes kind c d) : kind = .cellOverflow ∨ kind = .inputExhausted := by
  cases h
  · exact .inl rfl
  · exact .inr rfl

theorem initial (h : Relaxes kind c d) (source : σ) (sink : τ) :
    World.initial d source sink = .initial c source sink := by
  cases h <;> rfl

theorem fits (h : Relaxes kind c d) (hw : w.Fits c) : w.Fits d := by
  cases h <;> exact ⟨hw.pointer_lt, hw.length_le, hw.growable, hw.growthChunk⟩

theorem allowed (h : Relaxes kind c d) (hw : w.Allowed c) : w.Allowed d := by
  intro limit hlimit
  exact hw limit (h.maxSteps.symm.trans hlimit)

end Config.Relaxes

namespace Machine

/-- the next step fails with an error of this kind -/
def FailsWith [ByteSource σ] [ByteSink τ] (m : Machine σ τ) (kind : ErrorKind) : Prop :=
  ∃ e, m.step.1 = some (.error e) ∧ e.kind = kind

/-- the next command is dispatched, and is one that a strict option refuses -/
inductive Refuses [ByteSource σ] (m : Machine σ τ) : ErrorKind → ExecutionError → Prop where
  | increment : m.limitReached = none → m.program.commands[m.ip]? = some .increment → m.cell = 255 →
      Refuses m .cellOverflow ⟨.cellOverflow 256, m.ip, m.pointer⟩
  | decrement : m.limitReached = none → m.program.commands[m.ip]? = some .decrement → m.cell = 0 →
      Refuses m .cellOverflow ⟨.cellOverflow (-1), m.ip, m.pointer⟩
  | input {source : σ} : m.limitReached = none → m.program.commands[m.ip]? = some .input →
      ByteSource.next m.source = (.ended, source) →
      Refuses m .inputExhausted ⟨.inputExhausted, m.ip, m.pointer⟩

end Machine

/-! ## One step -/

variable [ByteSource σ] [ByteSink τ]

/-- a command that does not fail with an error of the kind does the same in the lenient configuration -/
theorem Effect.relax {command : Command} (hd : c.Relaxes kind d) (h : Effect c i command w stop w')
    (hgo : ∀ e, stop = some (.error e) → e.kind ≠ kind) : Effect d i command w stop w' := by
  apply h.congr_of hd.allowGrowth hd.eofValue fun _ => hd.flushOutput
  · intro hwrap
    by_cases hkind : kind = .cellOverflow
    · subst hkind
      exact hd.cells.2
    · exact (hd.wrappingCells_eq hkind).trans hwrap
  · intro v hstrict hstop
    exact (hd.wrappingCells_eq (hgo _ hstop).symm).trans hstrict
  · intro policy hpolicy hstop
    by_cases hkind : kind = .inputExhausted
    · subst hkind
      have herror : policy = .error := hpolicy.symm.trans hd.policies.1
      exact absurd rfl (hgo _ (hstop herror))
    · exact (hd.eofPolicy_eq hkind).trans hpolicy

omit [ByteSource σ] [ByteSink τ] in
theorem kind_of_streamStop {stream : String} {f : Fault} {pointer : Nat}
    (h : streamStop stream f i pointer = .error e) : e.kind = .ioFailure := by
  unfold streamStop at h
  split at h
  · cases h
    rfl
  · cases h

/-- a command that fails with an error of one of the two kinds is refused -/
theorem Effect.refuses {command : Command} (hallowed : w.Allowed c) (hc : p.commands[i]? = some command)
    (hkind : e.kind = .cellOverflow ∨ e.kind = .inputExhausted) (h : Effect c i command w (some (.error e)) w') :
    (Machine.place p c i w).Refuses e.kind e := by
  have hlimit := Machine.limitReached_of_allowed (p := p) (i := i) hallowed
  generalize hs : some (Stop.error e) = stop at h
  cases h with
  | incrementEnd hfull _ =>
    cases hs
    exact .increment hlimit hc hfull
  | decrementEnd hzero _ =>
    cases hs
    exact .decrement hlimit hc hzero
  | inputEnd hread _ =>
    cases hs
    exact .input hlimit hc hread
  | rightEnd | leftEnd =>
    cases hs
    rcases hkind with hkind | hkind <;> cases hkind
  | writeFault | flushFault | readFault =>
    rw [kind_of_streamStop (Option.some.inj hs).symm] at hkind
    rcases hkind with hkind | hkind <;> cases hkind
  | _ => cases hs

namespace Machine

/-- a strict machine fails with an error of the kind exactly where the next command is refused -/
theorem refuses_iff (hd : c.Relaxes kind d) (hp : p.WellFormed) (hw : w.Fits c) :
    (place p c i w).step.1 = some (.error e) ∧ e.kind = kind ↔ (place p c i w).Refuses kind e := by
  constructor
  · rintro ⟨hstep, rfl⟩
    obtain ⟨stop, j, w', hmove⟩ := exists_moves hp i hw
    rw [step_of_moves hp hw hmove] at hstep
    obtain rfl : stop = some (.error e) := hstep
    cases hmove with
    | limit => rcases hd.kind_eq with hkind | hkind <;> cases hkind
    | plainStop hallowed hc he => exact he.refuses hallowed hc hd.kind_eq
  · intro h
    have hstop : ∀ {e : ExecutionError} {w' : World σ τ}, Moves p c i w (some (.error e)) i w' →
        (place p c i w).step.1 = some (.error e) := by
      intro e w' hmove
      rw [step_of_moves hp hw hmove]
    cases h with
    | increment hlimit hc hfull =>
      have hallowed := limitReached_eq_none_iff.1 hlimit
      exact ⟨hstop (.plainStop hallowed hc (.incrementEnd hfull hd.cells.1)), rfl⟩
    | decrement hlimit hc hzero =>
      have hallowed := limitReached_eq_none_iff.1 hlimit
      exact ⟨hstop (.plainStop hallowed hc (.decrementEnd hzero hd.cells.1)), rfl⟩
    | input hlimit hc hread =>
      have hallowed := limitReached_eq_none_iff.1 hlimit
      exact ⟨hstop (.plainStop hallowed hc (.inputEnd hread hd.policies.1)), rfl⟩

/-- a lenient configuration has an answer to the end of the input -/
theorem exists_effect_ended (hpolicy : d.eofPolicy ≠ .error) {source : σ}
    (hread : ByteSource.next w.source = (.ended, source)) : ∃ w', Effect d i .input w none w' := by
  cases hd : d.eofPolicy with
  | zero => exact ⟨_, .inputZero hread hd⟩
  | unchanged => exact ⟨_, .inputUnchanged hread hd⟩
  | value => exact ⟨_, .inputValue hread hd⟩
  | error => exact absurd hd hpolicy

/-- a command that a strict machine refuses is carried out by the lenient one -/
theorem step_of_refuses (hd : c.Relaxes kind d) (hp : p.WellFormed) (hw : w.Fits c)
    (h : (place p c i w).Refuses kind e) : (place p d i w).step.1 = none := by
  have hstep : ∀ {j : Nat} {w' : World σ τ}, Moves p d i w none j w' → (place p d i w).step.1 = none := by
    intro j w' hmove
    rw [step_of_moves hp (hd.fits hw) hmove]
  have hallowed : (place p c i w).limitReached = none → w.Allowed d := by
    intro hlimit
    exact hd.allowed (limitReached_eq_none_iff.1 hlimit)
  cases h with
  | increment hlimit hc _ => exact hstep (.plain (hallowed hlimit) hc (.increment (.inr hd.cells.2)))
  | decrement hlimit hc _ => exact hstep (.plain (hallowed hlimit) hc (.decrement (.inr hd.cells.2)))
  | input hlimit hc hread =>
    obtain ⟨w', he⟩ := exists_effect_ended hd.policies.2 hread
    exact hstep (.plain (hallowed hlimit) hc he)

end Machine

/-- a step that is not refused does the same in the lenient configuration -/
theorem Moves.relax (hd : c.Relaxes kind d) (hp : p.WellFormed) (hw : w.Fits c)
    (hgo : ¬ (Machine.place p c i w).FailsWith kind) (h : Moves p c i w stop j w') : Moves p d i w stop j w' := by
  have hlook : ∀ w v : World σ τ, w = v → v.pointer = w.pointer ∧ v.steps = w.steps ∧ v.cell = w.cell := by
    rintro w _ rfl
    exact ⟨rfl, rfl, rfl⟩
  have htick : ∀ w v : World σ τ, w = v → w.tick = v.tick := fun _ _ => congrArg World.tick
  obtain ⟨_, hmove, rfl⟩ : ∃ v', Moves p d i w stop j v' ∧ w' = v' := by
    apply h.transfer _ hd.allowed hlook htick rfl
    · intro command stop w' hallowed hc he
      refine ⟨w', he.relax hd ?_, rfl⟩
      rintro e rfl hkind
      refine hgo ⟨e, ?_, hkind⟩
      rw [Machine.step_of_moves hp hw (.plainStop hallowed hc he)]
    · intro limit hmax _
      exact hd.maxSteps.trans hmax
  exact hmove

/-! ## Runs -/

namespace Machine

/-- up to the first refusal the states are the same, and so are the steps that are not refused -/
theorem after_relax (hd : c.Relaxes kind d) (hp : p.WellFormed) (hw : w.Fits c) (n : Nat)
    (hbefore : ∀ l < n, ¬ ((place p c i w).after l).FailsWith kind) :
    ∃ j w', w'.Fits c ∧ (place p c i w).after n = place p c j w' ∧ (place p d i w).after n = place p d j w' ∧
      (¬ ((place p c i w).after n).FailsWith kind →
        ((place p d i w).after n).step.1 = ((place p c i w).after n).step.1) := by
  have hkeep : ∀ i (w v : World σ τ), w.Fits c → v.Fits d → w = v → ¬ (place p c i w).FailsWith kind →
      ∀ stop j w', Moves p c i w stop j w' → ∃ v', Moves p d i v stop j v' ∧ w' = v' := by
    rintro i w _ hw - rfl hgo stop j w' hmove
    exact ⟨w', hmove.relax hd hp hw hgo, rfl⟩
  obtain ⟨j, w', _, hn, hn', hw', hv', rfl⟩ :=
    after_pair hp hkeep hw (hd.fits hw) rfl n fun l hl j w' hj => hj ▸ hbefore l hl
  refine ⟨j, w', hw', hn, hn', ?_⟩
  rw [hn, hn']
  intro hgo
  obtain ⟨stop, _, _, _, hs, hs', -⟩ := step_pair hp hw' hv' (hkeep j w' w' hw' hv' rfl hgo)
  rw [hs, hs']

/-- in a run in which nothing is refused, all states are the same -/
theorem after_relax_of_dispatches (hd : c.Relaxes kind d) (hp : p.WellFormed) (hw : w.Fits c)
    (hnever : ∀ n, (place p c i w).Dispatches n → ¬ ((place p c i w).after n).FailsWith kind) {n : Nat}
    (hn : (place p c i w).Dispatches n) :
    ∃ j w', (place p c i w).after n = place p c j w' ∧ (place p d i w).after n = place p d j w' ∧
      ((place p d i w).after n).step.1 = ((place p c i w).after n).step.1 := by
  obtain ⟨j, w', -, h, h', hstop⟩ := after_relax hd hp hw n fun l hl => hnever l (hn.mono (Nat.le_of_lt hl))
  exact ⟨j, w', h, h', hstop (hnever n hn)⟩

/-- a run in which nothing is refused stops alike -/
theorem stops_relax (hd : c.Relaxes kind d) (hp : p.WellFormed) (hw : w.Fits c)
    (hnever : ∀ n, (place p c i w).Dispatches n → ¬ ((place p c i w).after n).FailsWith kind) :
    (∀ n, (place p c i w).Dispatches n →
      ((place p d i w).after n).finished = ((place p c i w).after n).finished) ∧
    ∀ n, (place p c i w).Dispatches n →
      ((place p d i w).after n).step.1 = ((place p c i w).after n).step.1 := by
  constructor
  · intro n hn
    obtain ⟨j, w', h, h', -⟩ := after_relax_of_dispatches hd hp hw hnever hn
    rw [h, h']
    rfl
  · intro n hn
    obtain ⟨-, -, -, -, hstop⟩ := after_relax_of_dispatches hd hp hw hnever hn
    exact hstop

/-- a run in which nothing is refused ends alike -/
theorem ends_relax (hd : c.Relaxes kind d) (hp : p.WellFormed) (hw : w.Fits c)
    (hnever : ∀ n, (place p c i w).Dispatches n → ¬ ((place p c i w).after n).FailsWith kind) (k : Nat)
    (e : Ending) : (place p d i w).Ends k e ↔ (place p c i w).Ends k e := by
  obtain ⟨hfin, hstop⟩ := stops_relax hd hp hw hnever
  exact ends_iff hfin hstop k e

/-- with any patience, a run in which nothing is refused comes to the same -/
theorem run_relax (hd : c.Relaxes kind d) (hp : p.WellFormed) (hw : w.Fits c)
    (hnever : ∀ n, (place p c i w).Dispatches n → ¬ ((place p c i w).after n).FailsWith kind) (u : Nat) :
    ∃ e j w', (place p c i w).run u = (e, place p c j w') ∧ (place p d i w).run u = (e, place p d j w') := by
  obtain ⟨hfin, hstop⟩ := stops_relax hd hp hw hnever
  obtain ⟨k, e, hbefore, hrun, hrun'⟩ := run_congr hfin hstop u
  obtain ⟨j, w', -, hafter, hafter', -⟩ := after_relax hd hp hw k fun l hl => hnever l (hbefore l hl)
  rw [hafter] at hrun
  rw [hafter'] at hrun'
  exact ⟨e, j, w', hrun, hrun'⟩

end Machine

/-- a strict machine and a lenient one: they are in the same states and stop alike up to the first error of the kind,
which comes exactly where the next command is refused; there the lenient machine goes on -/
structure OnlyRefuses (kind : ErrorKind) (m m' : Machine σ τ) : Prop where
  agrees : ∀ n, (∀ l < n, ¬ (m.after l).FailsWith kind) → (m.after n).Agree (m'.after n)
  stops : ∀ n, (∀ l ≤ n, ¬ (m.after l).FailsWith kind) → (m'.after n).step.1 = (m.after n).step.1
  refuses : ∀ n e, (m.after n).step.1 = some (.error e) ∧ e.kind = kind ↔ (m.after n).Refuses kind e
  goesOn : ∀ n, (∀ l < n, ¬ (m.after l).FailsWith kind) → (m.after n).FailsWith kind → (m'.after n).step.1 = none

namespace Machine

theorem onlyRefuses (hd : c.Relaxes kind d) (hp : p.WellFormed) (hw : w.Fits c) :
    OnlyRefuses kind (place p c i w) (place p d i w) where
  agrees := by
    intro n hbefore
    obtain ⟨j, w', -, h, h', -⟩ := after_relax hd hp hw n hbefore
    rw [h, h']
    exact ⟨rfl, rfl, rfl, rfl, rfl, rfl, rfl⟩
  stops := by
    intro n hbefore
    obtain ⟨-, -, -, -, -, hstop⟩ := after_relax hd hp hw n fun l hl => hbefore l (Nat.le_of_lt hl)
    exact hstop (hbefore n (Nat.le_refl n))
  refuses := by
    intro n e
    obtain ⟨j, w', h, hw', -⟩ := exists_after hp (P := fun _ _ => True) hw trivial (fun _ _ _ _ _ _ h => h) n
    rw [h]
    exact refuses_iff hd hp hw'
  goesOn := by
    rintro n hbefore ⟨e, hfails⟩
    obtain ⟨j, w', hw', h, h', -⟩ := after_relax hd hp hw n hbefore
    rw [h] at hfails
    rw [h']
    exact step_of_refuses hd hp hw' ((refuses_iff hd hp hw').1 hfails)

end Machine

/-! ## Sessions -/

/-- **Strict options only refuse.** Take a machine, and the one of the same session with wrapping cells instead of cells
that overflow, or with another policy instead of an error at the end of the input. Both go through the same states and
stop alike up to the first error that the strict option makes. That error comes exactly at an increment of a cell of
255, a decrement of a cell of 0, or an input that finds the source at its end. A run to which it never comes ends alike,
in the same state, and every execution has the same outcome. -/
theorem strict_options_only_refuse (s : Session σ τ) (kind : ErrorKind) (d : Config) (hd : s.config.Relaxes kind d)
    (job : Job) (hjob : job.Parsed) (m : Machine σ τ) (hm : s.prepare job = .ok m) :
    ∃ m', (s.withConfig d).prepare job = .ok m' ∧ OnlyRefuses kind m m' ∧
      ((∀ n, m.Dispatches n → ¬ (m.after n).FailsWith kind) →
        (∀ k e, m'.Ends k e ↔ m.Ends k e) ∧ (∀ k e, m.Ends k e → (m.after k).Agree (m'.after k)) ∧
          ∀ u, Session.SameOutcome (s.execute u job) ((s.withConfig d).execute u job)) := by
  obtain ⟨p, hp, rfl, hm'⟩ := Session.exists_places hjob hd.precomputeJumps hm
  have hfits := World.fits_initial s.config s.feed.source s.sink
  rw [hd.initial] at hm'
  have hrefuses := Machine.onlyRefuses (i := 0) hd hp hfits
  refine ⟨_, hm', hrefuses, fun hnever => ⟨Machine.ends_relax hd hp hfits hnever, ?_, fun u => ?_⟩⟩
  · intro k e h
    exact hrefuses.agrees k fun l hl => hnever l (h.dispatches hl)
  · let patience := (Machine.place p s.config 0 (.initial s.config s.feed.source s.sink)).patience u
    have hpatience : (Machine.place p d 0 (.initial s.config s.feed.source s.sink)).patience u = patience := by
      simp only [patience, Machine.patience, Machine.place, hd.maxSteps]
    obtain ⟨e, j, w, hrun, hrun'⟩ := Machine.run_relax hd hp hfits hnever patience
    obtain ⟨e', w', -, -, hx, hx'⟩ := Machine.execute_pair hd.flushOutput hrun hrun'
    rw [← hpatience] at hx'
    exact Session.sameOutcome_of_execute rfl rfl hd.benchExecution hm hm' hx hx'

/-- a byte of 255 is read and incremented, and an input finds no byte: the strict machine stops, the other goes on -/
theorem strict_options_only_refuse_full_cell :
    (∃ (s : Session Source Sink) (d : Config) (m m' : Machine Source Sink), s.config.Relaxes .cellOverflow d ∧
      s.prepare (.script (.text ",+")) = .ok m ∧ (s.withConfig d).prepare (.script (.text ",+")) = .ok m' ∧
      (m.after 1).Agree (m'.after 1) ∧ (m.after 1).step.1 = some (.error ⟨.cellOverflow 256, 1, 0⟩) ∧
      (m'.after 1).step.1 = none) ∧
    ∃ (s : Session Source Sink) (d : Config) (m m' : Machine Source Sink), s.config.Relaxes .inputExhausted d ∧
      s.prepare (.script (.text ",")) = .ok m ∧ (s.withConfig d).prepare (.script (.text ",")) = .ok m' ∧
      m.step.1 = some (.error ⟨.inputExhausted, 0, 0⟩) ∧ m'.step.1 = none := by
  constructor
  · let s : Session Source Sink := .start { wrappingCells := false } (.replayed (.buffer [255])) (.buffer #[])
    have hd : s.config.Relaxes .cellOverflow { s.config with wrappingCells := true } := .wrapping rfl
    obtain ⟨m, hm, hfirst, hlimit, hcommand, hfull, hip, hpointer⟩ :
        ∃ m, s.prepare (.script (.text ",+")) = .ok m ∧ m.step.1 = none ∧ (m.after 1).limitReached = none ∧
          (m.after 1).program.commands[(m.after 1).ip]? = some .increment ∧ (m.after 1).cell = 255 ∧
          (m.after 1).ip = 1 ∧ (m.after 1).pointer = 0 := by
      refine ⟨_, rfl, ?_⟩
      decide +kernel
    obtain ⟨m', hm', honly, -⟩ := strict_options_only_refuse s .cellOverflow _ hd (.script (.text ",+")) trivial m hm
    have hfails := (honly.refuses 1 _).2 (.increment hlimit hcommand hfull)
    rw [hip, hpointer] at hfails
    have hbefore : ∀ l < 1, ¬ (m.after l).FailsWith .cellOverflow := by
      rintro l hl ⟨e, he, -⟩
      obtain rfl : l = 0 := Nat.lt_one_iff.1 hl
      cases hfirst.symm.trans he
    exact ⟨s, _, m, m', hd, hm, hm', honly.agrees 1 hbefore, hfails.1, honly.goesOn 1 hbefore ⟨_, hfails⟩⟩
  · let s : Session Source Sink := .start { eofPolicy := .error } (.replayed (.buffer [])) (.buffer #[])
    have hd : s.config.Relaxes .inputExhausted { s.config with eofPolicy := .unchanged } :=
      .eofPolicy rfl (by decide)
    obtain ⟨m', hm', honly, -⟩ := strict_options_only_refuse s .inputExhausted _ hd (.script (.text ",")) trivial _ rfl
    have hfails := (honly.refuses 0 _).2 (.input rfl rfl rfl)
    have hgoesOn := honly.goesOn 0 (fun l hl => absurd hl (Nat.not_lt_zero l)) ⟨_, hfails⟩
    exact ⟨s, _, _, m', hd, rfl, hm', hfails.1, hgoesOn⟩

end Brainfuck
