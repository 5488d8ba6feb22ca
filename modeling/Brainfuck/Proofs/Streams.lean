/-
One program on different streams.

The machine sees of its streams only what they answer. So streams that answer alike are as good as each other.

- `SourcesAlike R`, `SinksAlike Q`: related streams answer every call alike, and are related again after it.
- `World.onStreams`, `Machine.onStreams`: the same world, or machine, on other streams. What is left of a machine
  without its streams is `Machine.bare`.
- `Effect.onStreams_of`, `Moves.onStreams_of`: a command, and a step, does the same on related sinks, and looks at the
  source only to read it. So on related streams a step does the same (`Moves.alike`), and by induction so do any number
  of steps (`Machine.after_alike`) and an execution (`Session.execute_alike`).
- `ByteSource.readings`, `ByteSource.left`: what a number of reads give, and the source after them.
- `Reliable`: a sink that never fails.
-/
import Brainfuck.Proofs.Running
import Brainfuck.Proofs.Simulation

namespace Brainfuck

variable {σ σ' τ τ' : Type}

/-! ## Streams that answer alike -/

/-- one read of either source gives the same, and leaves them related -/
def ReadAlike [ByteSource σ] [ByteSource σ'] (R : σ → σ' → Prop) (s : σ) (s' : σ') : Prop :=
  ∀ ⦃reading : Reading⦄ ⦃rest : σ⦄, ByteSource.next s = (reading, rest) →
    ∃ rest', ByteSource.next s' = (reading, rest') ∧ R rest rest'

/-- sources that are related are read alike, and are related again -/
structure SourcesAlike [ByteSource σ] [ByteSource σ'] (R : σ → σ' → Prop) : Prop where
  next {s : σ} {s' : σ'} {reading : Reading} {rest : σ} : R s s' → ByteSource.next s = (reading, rest) →
    ∃ rest', ByteSource.next s' = (reading, rest') ∧ R rest rest'

/-- sinks that are related fail alike, and are related again -/
structure SinksAlike [ByteSink τ] [ByteSink τ'] (Q : τ → τ' → Prop) : Prop where
  write {t : τ} {t' : τ'} {b : UInt8} {fault : Option Fault} {rest : τ} : Q t t' →
    ByteSink.write b t = (fault, rest) → ∃ rest', ByteSink.write b t' = (fault, rest') ∧ Q rest rest'
  flush {t : τ} {t' : τ'} {fault : Option Fault} {rest : τ} : Q t t' →
    ByteSink.flush t = (fault, rest) → ∃ rest', ByteSink.flush t' = (fault, rest') ∧ Q rest rest'

/-- related sinks on which every call succeeds, and leaves them related -/
theorem SinksAlike.of_success [ByteSink τ] [ByteSink τ'] {Q : τ → τ' → Prop}
    (hwrite : ∀ t t' b, Q t t' →
      ∃ rest rest', ByteSink.write b t = (none, rest) ∧ ByteSink.write b t' = (none, rest') ∧ Q rest rest')
    (hflush : ∀ t t', Q t t' →
      ∃ rest rest', ByteSink.flush t = (none, rest) ∧ ByteSink.flush t' = (none, rest') ∧ Q rest rest') :
    SinksAlike Q where
  write := by
    intro t t' b fault rest hQ hcall
    obtain ⟨r, r', hr, hr', hrest⟩ := hwrite t t' b hQ
    obtain ⟨rfl, rfl⟩ := Prod.mk.inj (hr.symm.trans hcall)
    exact ⟨r', hr', hrest⟩
  flush := by
    intro t t' fault rest hQ hcall
    obtain ⟨r, r', hr, hr', hrest⟩ := hflush t t' hQ
    obtain ⟨rfl, rfl⟩ := Prod.mk.inj (hr.symm.trans hcall)
    exact ⟨r', hr', hrest⟩

theorem sourcesAlike_eq [ByteSource σ] : SourcesAlike (Eq : σ → σ → Prop) where
  next := by
    rintro s _ reading rest rfl h
    exact ⟨rest, h, rfl⟩

theorem sinksAlike_eq [ByteSink τ] : SinksAlike (Eq : τ → τ → Prop) where
  write := by
    rintro t _ b fault rest rfl hcall
    exact ⟨rest, hcall, rfl⟩
  flush := by
    rintro t _ fault rest rfl hcall
    exact ⟨rest, hcall, rfl⟩

namespace ByteSource

variable [ByteSource σ]

/-- what so many reads give -/
def readings : Nat → σ → List Reading
  | 0, _ => []
  | n + 1, s => (next s).1 :: readings n (next s).2

/-- the source after so many reads -/
def left : Nat → σ → σ
  | 0, s => s
  | n + 1, s => left n (next s).2

theorem left_succ (n : Nat) (s : σ) : left (n + 1) s = (next (left n s)).2 := by
  induction n generalizing s with
  | zero => rfl
  | succ n ih => exact ih (next s).2

theorem readings_succ (n : Nat) (s : σ) : readings (n + 1) s = readings n s ++ [(next (left n s)).1] := by
  induction n generalizing s with
  | zero => rfl
  | succ n ih => exact congrArg ((next s).1 :: ·) (ih (next s).2)

end ByteSource

/-- the sink does not fail, whatever it is asked to do: it has a property that its calls keep and under which none of
them fails -/
def Reliable [ByteSink τ] (t : τ) : Prop :=
  ∃ P : τ → Prop, P t ∧ ∀ t, P t →
    (∀ b, (ByteSink.write b t).1 = none ∧ P (ByteSink.write b t).2) ∧
      (ByteSink.flush t).1 = none ∧ P (ByteSink.flush t).2

namespace Reliable

variable [ByteSink τ] {t : τ}

theorem write (h : Reliable t) (b : UInt8) : ∃ rest, ByteSink.write b t = (none, rest) ∧ Reliable rest := by
  obtain ⟨P, ht, hP⟩ := h
  obtain ⟨hnone, hrest⟩ := (hP t ht).1 b
  exact ⟨_, Prod.ext hnone rfl, P, hrest, hP⟩

theorem flush (h : Reliable t) : ∃ rest, ByteSink.flush t = (none, rest) ∧ Reliable rest := by
  obtain ⟨P, ht, hP⟩ := h
  obtain ⟨hnone, hrest⟩ := (hP t ht).2
  exact ⟨_, Prod.ext hnone rfl, P, hrest, hP⟩

end Reliable

/-! ## Other streams -/

/-- the same world on other streams -/
def World.onStreams (w : World σ τ) (s : σ') (t : τ') : World σ' τ' where
  tape := w.tape
  pointer := w.pointer
  source := s
  sink := t
  outputBytes := w.outputBytes
  steps := w.steps

/-- the next step reads: the command is an input, and the step limit allows it -/
def World.Reads (p : Program) (config : Config) (i : Nat) (w : World σ τ) : Prop :=
  w.Allowed config ∧ p.commands[i]? = some .input

theorem World.Fits.onStreams {config : Config} {w : World σ τ} (h : w.Fits config) (s : σ') (t : τ') :
    (w.onStreams s t).Fits config :=
  ⟨h.pointer_lt, h.length_le, h.growable, h.growthChunk⟩

/-- the worlds differ in their streams only, and these are related -/
inductive World.Alike (R : σ → σ' → Prop) (Q : τ → τ' → Prop) (w : World σ τ) : World σ' τ' → Prop where
  | onStreams {s : σ'} {t : τ'} : R w.source s → Q w.sink t → Alike R Q w (w.onStreams s t)

namespace Machine

/-- the same machine on other streams -/
def onStreams (m : Machine σ τ) (s : σ') (t : τ') : Machine σ' τ' where
  program := m.program
  config := m.config
  source := s
  sink := t
  tape := m.tape
  pointer := m.pointer
  ip := m.ip
  steps := m.steps
  outputBytes := m.outputBytes

/-- the machine without its streams -/
def bare (m : Machine σ τ) : Machine Unit Unit := m.onStreams () ()

/-- the machines differ in their streams only, and these are related -/
inductive Alike (R : σ → σ' → Prop) (Q : τ → τ' → Prop) (m : Machine σ τ) : Machine σ' τ' → Prop where
  | onStreams {s : σ'} {t : τ'} : R m.source s → Q m.sink t → Alike R Q m (m.onStreams s t)

variable {R : σ → σ' → Prop} {Q : τ → τ' → Prop} {m : Machine σ τ} {m' : Machine σ' τ'}

theorem Alike.source (h : Alike R Q m m') : R m.source m'.source := by
  cases h with
  | onStreams hs _ => exact hs

theorem Alike.sink (h : Alike R Q m m') : Q m.sink m'.sink := by
  cases h with
  | onStreams _ ht => exact ht

theorem Alike.bare_eq (h : Alike R Q m m') : m'.bare = m.bare := by
  cases h
  rfl

theorem Alike.finished_eq (h : Alike R Q m m') : m'.finished = m.finished := by
  cases h
  rfl

theorem alike_place {p : Program} {config : Config} {i : Nat} {w : World σ τ} {v : World σ' τ'}
    (h : World.Alike R Q w v) : Alike R Q (place p config i w) (place p config i v) := by
  cases h with
  | onStreams hs ht => exact .onStreams hs ht

end Machine

theorem World.Alike.fits {R : σ → σ' → Prop} {Q : τ → τ' → Prop} {config : Config} {w : World σ τ} {v : World σ' τ'}
    (h : World.Alike R Q w v) (hw : w.Fits config) : v.Fits config := by
  cases h with
  | onStreams => exact hw.onStreams _ _

/-! ## One step on other streams -/

section Steps

variable [ByteSource σ] [ByteSource σ'] [ByteSink τ] [ByteSink τ'] {R : σ → σ' → Prop} {Q : τ → τ' → Prop}
  {p : Program} {config : Config} {i j : Nat} {stop : Option Stop} {w w' : World σ τ} {v : World σ' τ'}

/-- a command that is no output leaves every sink as it is; unless it is an input, the source is as it was, and
otherwise a read of both sources must give the same -/
theorem Effect.onStreams_of_silent {c : Command} {s : σ'} (t : τ') (hne : c ≠ .output)
    (hkeep : c ≠ .input → R w.source s) (hread : c = .input → ReadAlike R w.source s)
    (h : Effect config i c w stop w') :
    ∃ s', Effect config i c (w.onStreams s t) stop (w'.onStreams s' t) ∧ R w'.source s' ∧ w'.sink = w.sink ∧
      w'.outputBytes = w.outputBytes := by
  cases h with
  | right hlt => exact ⟨s, .right (w := w.onStreams s t) hlt, hkeep (by decide), rfl, rfl⟩
  | rightGrow hend hg => exact ⟨s, .rightGrow (w := w.onStreams s t) hend hg, hkeep (by decide), rfl, rfl⟩
  | rightEnd hend hg => exact ⟨s, .rightEnd (w := w.onStreams s t) hend hg, hkeep (by decide), rfl, rfl⟩
  | left hk => exact ⟨s, .left (w := w.onStreams s t) hk, hkeep (by decide), rfl, rfl⟩
  | leftEnd hk => exact ⟨s, .leftEnd (w := w.onStreams s t) hk, hkeep (by decide), rfl, rfl⟩
  | increment hok => exact ⟨s, .increment (w := w.onStreams s t) hok, hkeep (by decide), rfl, rfl⟩
  | incrementEnd hfull hwrap =>
    exact ⟨s, .incrementEnd (w := w.onStreams s t) hfull hwrap, hkeep (by decide), rfl, rfl⟩
  | decrement hok => exact ⟨s, .decrement (w := w.onStreams s t) hok, hkeep (by decide), rfl, rfl⟩
  | decrementEnd hzero hwrap =>
    exact ⟨s, .decrementEnd (w := w.onStreams s t) hzero hwrap, hkeep (by decide), rfl, rfl⟩
  | output | outputFlush | writeFault | flushFault => exact absurd rfl hne
  | input hnext =>
    obtain ⟨s', hnext', hs'⟩ := hread rfl hnext
    exact ⟨s', .input (w := w.onStreams s t) hnext', hs', rfl, rfl⟩
  | inputZero hnext hpol =>
    obtain ⟨s', hnext', hs'⟩ := hread rfl hnext
    exact ⟨s', .inputZero (w := w.onStreams s t) hnext' hpol, hs', rfl, rfl⟩
  | inputUnchanged hnext hpol =>
    obtain ⟨s', hnext', hs'⟩ := hread rfl hnext
    exact ⟨s', .inputUnchanged (w := w.onStreams s t) hnext' hpol, hs', rfl, rfl⟩
  | inputValue hnext hpol =>
    obtain ⟨s', hnext', hs'⟩ := hread rfl hnext
    exact ⟨s', .inputValue (w := w.onStreams s t) hnext' hpol, hs', rfl, rfl⟩
  | inputEnd hnext hpol =>
    obtain ⟨s', hnext', hs'⟩ := hread rfl hnext
    exact ⟨s', .inputEnd (w := w.onStreams s t) hnext' hpol, hs', rfl, rfl⟩
  | readFault hnext =>
    obtain ⟨s', hnext', hs'⟩ := hread rfl hnext
    exact ⟨s', .readFault (w := w.onStreams s t) hnext', hs', rfl, rfl⟩

/-- an output does the same on related sinks -/
theorem Effect.onStreams_output (hQ : SinksAlike Q) (s : σ') {t : τ'} (ht : Q w.sink t)
    (h : Effect config i .output w stop w') :
    ∃ t', Effect config i .output (w.onStreams s t) stop (w'.onStreams s t') ∧ w'.source = w.source ∧ Q w'.sink t' := by
  cases h with
  | output hwrite hno =>
    obtain ⟨t', hwrite', ht'⟩ := hQ.write ht hwrite
    exact ⟨t', .output (w := w.onStreams s t) hwrite' hno, rfl, ht'⟩
  | outputFlush hwrite hyes hflush =>
    obtain ⟨t₁, hwrite', ht₁⟩ := hQ.write ht hwrite
    obtain ⟨t', hflush', ht'⟩ := hQ.flush ht₁ hflush
    exact ⟨t', .outputFlush (w := w.onStreams s t) hwrite' hyes hflush', rfl, ht'⟩
  | writeFault hwrite =>
    obtain ⟨t', hwrite', ht'⟩ := hQ.write ht hwrite
    exact ⟨t', .writeFault (w := w.onStreams s t) hwrite', rfl, ht'⟩
  | flushFault hwrite hyes hflush =>
    obtain ⟨t₁, hwrite', ht₁⟩ := hQ.write ht hwrite
    obtain ⟨t', hflush', ht'⟩ := hQ.flush ht₁ hflush
    exact ⟨t', .flushFault (w := w.onStreams s t) hwrite' hyes hflush', rfl, ht'⟩

/-- a command does the same on related sinks; unless it is an input, the sources are as they were, and otherwise a
read of both must give the same -/
theorem Effect.onStreams_of (hQ : SinksAlike Q) {c : Command} {s : σ'} {t : τ'} (hkeep : c ≠ .input → R w.source s)
    (hread : c = .input → ReadAlike R w.source s) (ht : Q w.sink t) (h : Effect config i c w stop w') :
    ∃ s' t', Effect config i c (w.onStreams s t) stop (w'.onStreams s' t') ∧ R w'.source s' ∧ Q w'.sink t' := by
  by_cases hc : c = .output
  · subst hc
    obtain ⟨t', he, hsource, ht'⟩ := h.onStreams_output hQ s ht
    exact ⟨s, t', he, hsource ▸ hkeep (by decide), ht'⟩
  · obtain ⟨s', he, hs', hsink, -⟩ := h.onStreams_of_silent t hc hkeep hread
    exact ⟨s', t, he, hs', hsink ▸ ht⟩

/-- a step does the same on related sinks; unless it reads, the sources are as they were, and otherwise a read of both
must give the same -/
theorem Moves.onStreams_of (hQ : SinksAlike Q) {s : σ'} {t : τ'} (hkeep : ¬ w.Reads p config i → R w.source s)
    (hread : w.Reads p config i → ReadAlike R w.source s) (ht : Q w.sink t) (h : Moves p config i w stop j w') :
    ∃ v', Moves p config i (w.onStreams s t) stop j v' ∧ World.Alike R Q w' v' := by
  have hcommand : ∀ {c : Command} {stop : Option Stop} {w' : World σ τ}, w.Allowed config → p.commands[i]? = some c →
      Effect config i c w stop w' →
      ∃ s' t', Effect config i c (w.onStreams s t) stop (w'.onStreams s' t') ∧ R w'.source s' ∧ Q w'.sink t' := by
    intro c stop w' hallowed hc he
    refine he.onStreams_of hQ (fun hne => hkeep ?_) (fun heq => hread ⟨hallowed, heq ▸ hc⟩) ht
    rintro ⟨-, hinput⟩
    exact hne (Option.some.inj (hc.symm.trans hinput))
  have hbracket : ∀ {c : Command}, p.commands.toList[i]? = some c → c ≠ .input → R w.source s := by
    intro c hc hne
    rw [Array.getElem?_toList] at hc
    refine hkeep ?_
    rintro ⟨-, hinput⟩
    exact hne (Option.some.inj (hc.symm.trans hinput))
  cases h with
  | limit hmax hle =>
    refine ⟨_, .limit (w := w.onStreams s t) hmax hle, .onStreams (hkeep ?_) ht⟩
    rintro ⟨hallowed, -⟩
    exact Nat.not_lt.2 hle (hallowed _ hmax)
  | missing hallowed hc =>
    refine ⟨_, .missing hallowed hc, .onStreams (hkeep ?_) ht⟩
    rintro ⟨-, hinput⟩
    cases hc.symm.trans hinput
  | plain hallowed hc he =>
    obtain ⟨s', t', he', hs', ht'⟩ := hcommand hallowed hc he
    exact ⟨_, .plain hallowed hc he', .onStreams hs' ht'⟩
  | plainStop hallowed hc he =>
    obtain ⟨s', t', he', hs', ht'⟩ := hcommand hallowed hc he
    exact ⟨_, .plainStop hallowed hc he', .onStreams hs' ht'⟩
  | skip hallowed hpair h0 =>
    have hs := hbracket hpair.start (by decide)
    exact ⟨_, .skip (w := w.onStreams s t) hallowed hpair h0, .onStreams (w := w.tick) hs ht⟩
  | enter hallowed hpair h0 =>
    have hs := hbracket hpair.start (by decide)
    exact ⟨_, .enter (w := w.onStreams s t) hallowed hpair h0, .onStreams (w := w.tick) hs ht⟩
  | leave hallowed hpair h0 =>
    have hs := hbracket hpair.stop (by decide)
    exact ⟨_, .leave (w := w.onStreams s t) hallowed hpair h0, .onStreams (w := w.tick) hs ht⟩
  | again hallowed hpair h0 =>
    have hs := hbracket hpair.stop (by decide)
    exact ⟨_, .again (w := w.onStreams s t) hallowed hpair h0, .onStreams (w := w.tick) hs ht⟩

/-- a step does the same on related streams -/
theorem Moves.alike (hR : SourcesAlike R) (hQ : SinksAlike Q) (hv : World.Alike R Q w v)
    (h : Moves p config i w stop j w') : ∃ v', Moves p config i v stop j v' ∧ World.Alike R Q w' v' := by
  obtain ⟨hs, ht⟩ := hv
  exact h.onStreams_of hQ (fun _ => hs) (fun _ _ _ hnext => hR.next hs hnext) ht

end Steps

/-! ## Runs on other streams -/

section Runs

variable [ByteSource σ] [ByteSource σ'] [ByteSink τ] [ByteSink τ'] {R : σ → σ' → Prop} {Q : τ → τ' → Prop}
  {p : Program} {config : Config} {i : Nat} {w : World σ τ} {v : World σ' τ'}

omit [ByteSource σ] [ByteSource σ'] in
/-- the last flush does the same on related sinks -/
theorem Completes.alike {w' : World σ τ} {stop : Option Stop} (hQ : SinksAlike Q) (hv : World.Alike R Q w v)
    (h : Completes config i w stop w') : ∃ v', Completes config i v stop v' ∧ World.Alike R Q w' v' := by
  obtain ⟨hs, ht⟩ := hv
  cases h with
  | nothing hno => exact ⟨_, .nothing hno, .onStreams hs ht⟩
  | flush hflush h0 hf =>
    obtain ⟨t', hf', ht'⟩ := hQ.flush ht hf
    exact ⟨_, .flush hflush h0 hf', .onStreams (w := { w with sink := _ }) hs ht'⟩
  | fault hflush h0 hf =>
    obtain ⟨t', hf', ht'⟩ := hQ.flush ht hf
    exact ⟨_, .fault hflush h0 hf', .onStreams (w := { w with sink := _ }) hs ht'⟩

namespace Machine

/-- any number of steps on related streams, and the next one -/
theorem after_alike (hp : p.WellFormed) (hR : SourcesAlike R) (hQ : SinksAlike Q) (hw : w.Fits config)
    (hv : World.Alike R Q w v) (k : Nat) :
    Alike R Q ((place p config i w).after k) ((place p config i v).after k) ∧
      ((place p config i v).after k).step.1 = ((place p config i w).after k).step.1 := by
  have hkeep : ∀ i (w : World σ τ) (v : World σ' τ'), w.Fits config → v.Fits config → World.Alike R Q w v → True →
      ∀ stop j w', Moves p config i w stop j w' → ∃ v', Moves p config i v stop j v' ∧ World.Alike R Q w' v' :=
    fun _ _ _ _ _ hv _ _ _ _ hmove => hmove.alike hR hQ hv
  obtain ⟨j, w₁, v₁, hk, hk', hw₁, hv₁, halike⟩ :=
    after_pair hp hkeep hw (hv.fits hw) hv k fun _ _ _ _ _ => trivial
  obtain ⟨stop, _, _, _, hs, hs', -⟩ := step_pair hp hw₁ hv₁ (hkeep j w₁ v₁ hw₁ hv₁ halike trivial)
  rw [hk, hk', hs, hs']
  exact ⟨alike_place halike, rfl⟩

/-- runs that end alike on related sinks do so with the last flush -/
theorem execute_of_run_alike (hQ : SinksAlike Q) {m : Machine σ τ} {m' : Machine σ' τ'} {u : Nat} {e : Ending}
    (hrun : m.run u = (e, place p config i w)) (hrun' : m'.run u = (e, place p config i v))
    (hv : World.Alike R Q w v) : ∃ e' w' v', World.Alike R Q w' v' ∧
      m.execute u = (e', place p config i w') ∧ m'.execute u = (e', place p config i v') := by
  exact execute_pair_of_run (fun _ _ h => h.alike hQ hv) hrun hrun' hv

/-- a whole run on related streams, and the last flush -/
theorem execute_alike (hp : p.WellFormed) (hR : SourcesAlike R) (hQ : SinksAlike Q) (hw : w.Fits config)
    (hv : World.Alike R Q w v) (n : Nat) : ∃ e j w' v', World.Alike R Q w' v' ∧
      (place p config i w).execute n = (e, place p config j w') ∧
      (place p config i v).execute n = (e, place p config j v') := by
  apply execute_pair_of_moves hp _ _ hw (hv.fits hw) hv
  · intro i w v _ _ hv stop j w' hmove
    exact hmove.alike hR hQ hv
  · intro i w v hv stop w' hcomplete
    exact hcomplete.alike hQ hv

end Machine

namespace Session

/-- what one execution in each of two sessions comes to: neither can parse the program, or both have the same result
and leave machines that are alike -/
inductive ExecutesAlike (R : σ → σ' → Prop) (Q : τ → τ' → Prop) (s : Session σ τ) (s' : Session σ' τ') (job : Job) :
    Result × Session σ τ → Result × Session σ' τ' → Prop where
  | unparsed {e : ParseError} : job.program s.config = .error e →
      ExecutesAlike R Q s s' job (.unparsed e, s) (.unparsed e, s')
  | ran {p : Program} {r : Result} {m : Machine σ τ} {m' : Machine σ' τ'} : job.program s.config = .ok p →
      m.Alike R Q m' → ExecutesAlike R Q s s' job (r, s.after m) (r, s'.after m')

variable {s : Session σ τ} {s' : Session σ' τ'}

/-- one program in two sessions of one configuration on related streams -/
theorem execute_alike (hR : SourcesAlike R) (hQ : SinksAlike Q) (hconfig : s'.config = s.config)
    (hsource : R s.feed.source s'.feed.source) (hsink : Q s.sink s'.sink) {job : Job} (hjob : job.Parsed) (u : Nat) :
    ExecutesAlike R Q s s' job (s.execute u job) (s'.execute u job) := by
  cases hp : job.program s.config with
  | error e =>
    have hm : s.prepare job = .error e := s.prepare_eq_error hp
    have hm' : s'.prepare job = .error e := s'.prepare_eq_error (by rw [hconfig, hp])
    simp only [execute, hm, hm']
    exact .unparsed hp
  | ok p =>
    have hm := s.prepare_eq_place hp
    have hm' := s'.prepare_eq_place (by rw [hconfig, hp])
    rw [hconfig] at hm'
    have hstart : World.Alike R Q (.initial s.config s.feed.source s.sink)
        (.initial s.config s'.feed.source s'.sink) :=
      .onStreams (w := .initial s.config s.feed.source s.sink) hsource hsink
    obtain ⟨e, j, w, v, halike, hx, hx'⟩ := Machine.execute_alike (i := 0) (Job.wellFormed_of_program hjob hp) hR hQ
      (World.fits_initial s.config s.feed.source s.sink) hstart
      ((Machine.place p s.config 0 (.initial s.config s.feed.source s.sink)).patience u)
    rw [execute_of_prepare hm hx, execute_of_prepare hm' hx']
    obtain ⟨hs, ht⟩ := halike
    exact .ran hp (.onStreams hs ht)

omit [ByteSource σ] [ByteSource σ'] [ByteSink τ] [ByteSink τ'] in
theorem ExecutesAlike.result_eq {job : Job} {r : Result × Session σ τ} {r' : Result × Session σ' τ'}
    (h : ExecutesAlike R Q s s' job r r') : r'.1 = r.1 := by
  cases h <;> rfl

end Session

end Runs

end Brainfuck
