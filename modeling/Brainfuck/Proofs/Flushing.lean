/-
Flushing and timing change no results.

`Config.withOutput` sets the two options that say when the sink is flushed and whether the time is taken.

- `FlushUnseen Q`: a flush of either of two related sinks succeeds and leaves them related, and related sinks answer
  writes alike. So nobody who writes can tell how often the sink was flushed. Every sink of the library that never
  fails to flush is related to itself in this way (`Sink.sameStore_self`).
- `Effect.unseen`, `Moves.unseen`, `Completes.unseen`: what a command, a step and the last flush do is the same under
  both options, but for flushes.
- `flushing_changes_no_results`: by induction so are all states, and so is every execution; and the flushes are made as
  configured (`Machine.FlushesAsConfigured`).
- `flushes_can_be_seen`: a sink that never fails to flush can still answer writes by whether it was flushed, and then
  the options change the result.
-/
import Brainfuck.Device
import Brainfuck.Proofs.Isolation
import Brainfuck.Proofs.SinkCalls

namespace Brainfuck

variable {σ τ : Type} {p : Program} {c d : Config} {i j : Nat} {w w' v : World σ τ} {stop : Option Stop}

/-! ## Flushes that nobody sees -/

/-- flushes of related sinks succeed and leave them related, whichever is flushed, and writes are answered alike -/
structure FlushUnseen [ByteSink τ] (Q : τ → τ → Prop) : Prop where
  write {t t' : τ} {b : UInt8} {fault : Option Fault} {rest : τ} : Q t t' → ByteSink.write b t = (fault, rest) →
    ∃ rest', ByteSink.write b t' = (fault, rest') ∧ Q rest rest'
  left {t t' : τ} : Q t t' → ∃ rest, ByteSink.flush t = (none, rest) ∧ Q rest t'
  right {t t' : τ} : Q t t' → ∃ rest', ByteSink.flush t' = (none, rest') ∧ Q t rest'

namespace FlushUnseen

variable [ByteSink τ] {Q : τ → τ → Prop}

theorem left_of_flush (hQ : FlushUnseen Q) {t t' rest : τ} {fault : Option Fault} (h : Q t t')
    (hflush : ByteSink.flush t = (fault, rest)) : fault = none ∧ Q rest t' := by
  obtain ⟨r, hr, hrest⟩ := hQ.left h
  obtain ⟨rfl, rfl⟩ := Prod.mk.inj (hr.symm.trans hflush)
  exact ⟨rfl, hrest⟩

theorem sinksAlike (hQ : FlushUnseen Q) : SinksAlike Q where
  write := hQ.write
  flush := by
    intro t t' fault rest h hflush
    obtain ⟨rfl, hrest⟩ := hQ.left_of_flush h hflush
    exact hQ.right hrest

/-- the sinks accept the same bytes -/
theorem logged (hQ : FlushUnseen Q) :
    FlushUnseen fun l l' : LoggedSink τ => Q l.sink l'.sink ∧ l'.accepted = l.accepted where
  write := hQ.sinksAlike.logged.write
  left := by
    rintro l l' ⟨hsink, hsame⟩
    obtain ⟨r, hr, hrest⟩ := hQ.left hsink
    exact ⟨_, LoggedSink.flush_eq hr, hrest, hsame⟩
  right := by
    rintro l l' ⟨hsink, hsame⟩
    obtain ⟨r, hr, hrest⟩ := hQ.right hsink
    exact ⟨_, LoggedSink.flush_eq hr, hrest, hsame⟩

end FlushUnseen

namespace Sink

/-- the sink with its count of flushes taken back -/
def uncounted : Sink → Sink
  | failing data _ breakage => failing data 0 breakage
  | t => t

/-- the sinks never fail to flush, and they store the same -/
structure SameStore (t t' : Sink) : Prop where
  left : NeverFailsToFlush t
  right : NeverFailsToFlush t'
  uncounted : t'.uncounted = t.uncounted

/-- a sink that breaks on a flush fails when its good flushes are used up -/
theorem not_neverFailsToFlush (data : Array UInt8) (n good : Nat) (fault : Fault) :
    ¬ NeverFailsToFlush (failing data n (some ⟨true, good, fault⟩)) := by
  induction good generalizing n with
  | zero =>
    intro h
    cases (h.flush rfl).1
  | succ good ih =>
    intro h
    exact ih (n + 1) (h.flush rfl).2

/-- a buffer that only counts its flushes never fails -/
theorem neverFailsToFlush_failing (data : Array UInt8) (n : Nat) : NeverFailsToFlush (failing data n none) := by
  refine ⟨fun t => ∃ data n, t = failing data n none, ⟨data, n, rfl⟩, ?_⟩
  rintro _ ⟨data, n, rfl⟩
  refine ⟨fun b => ⟨data.push b, n, ?_⟩, rfl, data, n + 1, rfl⟩
  exact congrArg Prod.snd (push_byte (failing · n none) data "byte must be in range(0, 256)" b)

/-- a device with a limit fails when more is written than it takes -/
theorem not_neverFailsToFlush_limited (data : Array UInt8) (base passed : Nat) (limit : Limit) :
    ¬ NeverFailsToFlush (limited data base passed limit) := by
  induction hn : limit.room + 1 - data.size generalizing data base passed with
  | zero =>
    intro h
    have hfull : ¬ data.size ≤ limit.room := by omega
    have hflush : ByteSink.flush (limited data base passed limit) =
        (some limit.fault, limited data base limit.room limit) := if_neg hfull
    cases (h.flush hflush).1
  | succ n ih =>
    intro h
    have hroom : data.size ≤ limit.room := by omega
    have hmore : limit.room + 1 - (data.push 0).size = n := by
      rw [Array.size_push]
      omega
    have hwrite := put_limited 0 data base passed limit
    rw [if_pos hroom] at hwrite
    split at hwrite
    · exact ih _ _ _ hmore (h.write hwrite)
    · exact ih _ _ _ hmore (h.write hwrite)

/-- nothing but the count of flushes changes -/
theorem flush_eq {t : Sink} (h : NeverFailsToFlush t) :
    ∃ rest, ByteSink.flush t = (none, rest) ∧ rest.uncounted = t.uncounted := by
  cases t with
  | buffer | stream | textStream | wrapped => exact ⟨_, rfl, rfl⟩
  | closed => cases (h.flush rfl).1
  | failing data n breakage =>
    rcases breakage with _ | ⟨_ | _, good, fault⟩
    · exact ⟨_, rfl, rfl⟩
    · exact ⟨_, rfl, rfl⟩
    · exact absurd h (not_neverFailsToFlush data n good fault)
  | limited data base passed limit => exact absurd h (not_neverFailsToFlush_limited data base passed limit)

/-- a write does not look at the count -/
theorem write_uncounted (b : UInt8) (t : Sink) :
    ByteSink.write b t.uncounted = ((ByteSink.write b t).1, (ByteSink.write b t).2.uncounted) := by
  change put b.toNat t.uncounted = ((put b.toNat t).1, (put b.toNat t).2.uncounted)
  cases t with
  | buffer | stream | wrapped => simp only [uncounted, put, push_byte]
  | textStream data =>
    rw [uncounted, put_textStream]
    · rfl
    · simp
  | closed =>
    simp only [uncounted, put]
    cases byteOf "bytes must be in range(0, 256)" b.toNat <;> simp only
  | failing data n breakage =>
    rcases breakage with _ | ⟨_ | _, good, fault⟩
    · simp only [uncounted, put, push_byte]
    · cases good <;> simp only [uncounted, put, push_byte]
    · simp only [uncounted, put, push_byte]
  | limited data base passed limit =>
    have hsame : uncounted (limited data base passed limit) = limited data base passed limit := rfl
    rw [hsame, put_limited]
    split
    · rfl
    · split <;> rfl

theorem flushUnseen_sameStore : FlushUnseen SameStore where
  write := by
    rintro t t' b fault rest ⟨h, h', hsame⟩ hwrite
    have hboth : ((ByteSink.write b t').1, (ByteSink.write b t').2.uncounted) = (fault, rest.uncounted) := by
      rw [← write_uncounted, hsame, write_uncounted, hwrite]
    obtain ⟨hfault, hrest⟩ := Prod.mk.inj hboth
    have hwrite' : ByteSink.write b t' = (fault, (ByteSink.write b t').2) := Prod.ext hfault rfl
    exact ⟨_, hwrite', h.write hwrite, h'.write hwrite', hrest⟩
  left := by
    rintro t t' ⟨h, h', hsame⟩
    obtain ⟨rest, hflush, hrest⟩ := flush_eq h
    exact ⟨rest, hflush, (h.flush hflush).2, h', hsame.trans hrest.symm⟩
  right := by
    rintro t t' ⟨h, h', hsame⟩
    obtain ⟨rest, hflush, hrest⟩ := flush_eq h'
    exact ⟨rest, hflush, h, (h'.flush hflush).2, hrest.trans hsame⟩

/-- a sink that never fails to flush does not show how often it was flushed -/
theorem sameStore_self {t : Sink} (h : NeverFailsToFlush t) : t.SameStore t := ⟨h, h, rfl⟩

end Sink

/-! ## One step -/

/-- the configurations differ at most in when the sink is flushed and in whether the time is taken -/
structure Config.SameButOutput (c d : Config) : Prop where
  allowGrowth : d.allowGrowth = c.allowGrowth
  wrappingCells : d.wrappingCells = c.wrappingCells
  maxSteps : d.maxSteps = c.maxSteps
  eofPolicy : d.eofPolicy = c.eofPolicy
  eofValue : d.eofValue = c.eofValue

section Steps

variable [ByteSource σ] [ByteSink τ] {Q : τ → τ → Prop}

/-- a command that writes nothing does the same under the other options -/
theorem Effect.congr_output {command : Command} (hd : c.SameButOutput d) (hne : command ≠ .output)
    (h : Effect c i command w stop w') : Effect d i command w stop w' := by
  apply h.congr_of hd.allowGrowth hd.eofValue
  · exact fun houtput => absurd houtput hne
  · exact hd.wrappingCells.trans
  · intro _ hstrict _
    exact hd.wrappingCells.trans hstrict
  · intro _ hpolicy _
    exact hd.eofPolicy.trans hpolicy

/-- the byte is written, and flushed or not -/
theorem exists_output (hQ : FlushUnseen Q) (d : Config) {w : World σ τ} {sink : τ}
    (hwrite : ByteSink.write w.cell w.sink = (none, sink)) {t : τ} (ht : Q t sink) :
    ∃ sink', Effect d i .output w none { w.tick with sink := sink', outputBytes := w.outputBytes + 1 } ∧ Q t sink' := by
  cases hflush : d.flushOutput with
  | false => exact ⟨sink, .output hwrite hflush, ht⟩
  | true =>
    obtain ⟨sink', hf, ht'⟩ := hQ.right ht
    exact ⟨sink', .outputFlush hwrite hflush hf, ht'⟩

/-- an output does the same under the other options, but for flushes -/
theorem Effect.unseen_output (hQ : FlushUnseen Q) {t : τ} (ht : Q w.sink t) (h : Effect c i .output w stop w') :
    ∃ v', Effect d i .output (w.onStreams w.source t) stop v' ∧ World.Alike Eq Q w' v' := by
  cases h with
  | output hwrite _ =>
    obtain ⟨t₁, hwrite', ht₁⟩ := hQ.write ht hwrite
    obtain ⟨t₂, he, ht₂⟩ := exists_output hQ d (w := w.onStreams w.source t) hwrite' ht₁
    exact ⟨_, he, .onStreams (w := { w.tick with sink := _, outputBytes := w.outputBytes + 1 }) rfl ht₂⟩
  | outputFlush hwrite _ hflush =>
    obtain ⟨t₁, hwrite', ht₁⟩ := hQ.write ht hwrite
    obtain ⟨-, ht₁'⟩ := hQ.left_of_flush ht₁ hflush
    obtain ⟨t₂, he, ht₂⟩ := exists_output hQ d (w := w.onStreams w.source t) hwrite' ht₁'
    exact ⟨_, he, .onStreams (w := { w.tick with sink := _, outputBytes := w.outputBytes + 1 }) rfl ht₂⟩
  | writeFault hwrite =>
    obtain ⟨t₁, hwrite', ht₁⟩ := hQ.write ht hwrite
    exact ⟨_, .writeFault (w := w.onStreams w.source t) hwrite', .onStreams (w := { w.tick with sink := _ }) rfl ht₁⟩
  | flushFault hwrite _ hflush =>
    obtain ⟨t₁, hwrite', ht₁⟩ := hQ.write ht hwrite
    cases (hQ.left_of_flush ht₁ hflush).1

theorem Effect.unseen {command : Command} (hQ : FlushUnseen Q) (hd : c.SameButOutput d) (hv : World.Alike Eq Q w v)
    (h : Effect c i command w stop w') : ∃ v', Effect d i command v stop v' ∧ World.Alike Eq Q w' v' := by
  obtain ⟨rfl, ht⟩ := hv
  by_cases hcommand : command = .output
  · subst hcommand
    exact h.unseen_output hQ ht
  · obtain ⟨s', t', he, hs', ht'⟩ := h.onStreams_of hQ.sinksAlike (fun _ => rfl)
      (fun _ _ _ hnext => sourcesAlike_eq.next rfl hnext) ht
    exact ⟨_, he.congr_output hd hcommand, .onStreams hs' ht'⟩

theorem Moves.unseen (hQ : FlushUnseen Q) (hd : c.SameButOutput d) (hv : World.Alike Eq Q w v)
    (h : Moves p c i w stop j w') : ∃ v', Moves p d i v stop j v' ∧ World.Alike Eq Q w' v' := by
  apply h.transfer _ _ _ _ hv
  · intro command stop w' _ _ he
    exact he.unseen hQ hd hv
  · intro limit hmax _
    exact hd.maxSteps.trans hmax
  · intro hallowed limit hmax
    obtain ⟨-, -⟩ := hv
    exact hallowed limit (hd.maxSteps.symm.trans hmax)
  · rintro w _ ⟨-, -⟩
    exact ⟨rfl, rfl, rfl⟩
  · rintro w _ ⟨hs, ht⟩
    exact .onStreams (w := w.tick) hs ht

omit [ByteSource σ] in
/-- the last flush does not fail, and is not seen either -/
theorem Completes.unseen (hQ : FlushUnseen Q) (d : Config) (hv : World.Alike Eq Q w v) (h : Completes c i w stop w') :
    ∃ v', Completes d i v stop v' ∧ World.Alike Eq Q w' v' := by
  obtain ⟨rfl, ht⟩ := hv
  obtain ⟨rest, rfl, rfl, hrest⟩ : ∃ rest, stop = none ∧ w' = { w with sink := rest } ∧ Q rest _ := by
    cases h with
    | nothing => exact ⟨w.sink, rfl, rfl, ht⟩
    | flush _ _ hflush => exact ⟨_, rfl, rfl, (hQ.left_of_flush ht hflush).2⟩
    | fault _ _ hflush => cases (hQ.left_of_flush ht hflush).1
  by_cases hno : d.flushOutput = true ∨ w.outputBytes = 0
  · exact ⟨_, .nothing hno, .onStreams (w := { w with sink := rest }) rfl hrest⟩
  · rw [not_or, Bool.not_eq_true] at hno
    obtain ⟨t', hflush, ht'⟩ := hQ.right hrest
    exact ⟨_, .flush hno.1 hno.2 hflush, .onStreams (w := { w with sink := rest }) rfl ht'⟩

end Steps

/-! ## Sessions -/

/-- the configuration with the options that say when the sink is flushed and whether the time is taken -/
def Config.withOutput (config : Config) (flush bench : Bool) : Config :=
  { config with flushOutput := flush, benchExecution := bench }

theorem Config.sameButOutput (config : Config) (flush bench : Bool) :
    config.SameButOutput (config.withOutput flush bench) :=
  ⟨rfl, rfl, rfl, rfl, rfl⟩

/-- the result without the time -/
def Result.untimed : Result → Result
  | .done info => .done { info with timed := false }
  | r => r

/-- the machine under another configuration -/
def Machine.underConfig (m : Machine σ τ) (config : Config) : Machine σ τ := { m with config := config }

namespace Machine

variable [ByteSource σ] [ByteSink τ] {Q : τ → τ → Prop}

theorem after_unseen (hQ : FlushUnseen Q) (hd : c.SameButOutput d) (hp : p.WellFormed) (hw : w.Fits c) (hv : v.Fits d)
    (halike : World.Alike Eq Q w v) (k : Nat) :
    ((place p c i w).after k).Alike Eq Q (((place p d i v).after k).underConfig c) ∧
      ((place p d i v).after k).step.1 = ((place p c i w).after k).step.1 := by
  obtain ⟨j, w₁, v₁, hk, hk', hw₁, hv₁, halike₁⟩ :=
    after_pair hp (G := fun _ _ => True) (fun _ _ _ _ _ hv _ _ _ _ h => h.unseen hQ hd hv) hw hv halike k
      fun _ _ _ _ _ => trivial
  obtain ⟨stop, _, _, _, hs, hs', -⟩ := step_pair hp hw₁ hv₁ fun _ _ _ h => h.unseen hQ hd halike₁
  rw [hk, hk', hs, hs']
  exact ⟨alike_place halike₁, rfl⟩

theorem execute_unseen (hQ : FlushUnseen Q) (hd : c.SameButOutput d) (hp : p.WellFormed) (hw : w.Fits c)
    (hv : v.Fits d) (halike : World.Alike Eq Q w v) (u : Nat) :
    ∃ e j w' v', (place p c i w).execute u = (e, place p c j w') ∧ (place p d i v).execute u = (e, place p d j v') ∧
      World.Alike Eq Q w' v' := by
  obtain ⟨e, j, w', v', halike', hx, hx'⟩ :=
    execute_pair_of_moves hp (fun _ _ _ _ _ halike _ _ _ h => h.unseen hQ hd halike)
      (fun _ _ _ halike _ _ h => h.unseen hQ d halike) hw hv halike u
  exact ⟨e, j, w', v', hx, hx', halike'⟩

end Machine

namespace Session

variable {Q : τ → τ → Prop} {s : Session σ τ} {job : Job}

/-- what an execution comes to, and the same one under the other options: neither can parse the program, or the results
are the same but for the time and the machines left are the same but for their sinks -/
inductive ExecutesUnseen (Q : τ → τ → Prop) (s s' : Session σ τ) :
    Result × Session σ τ → Result × Session σ τ → Prop where
  | unparsed (e : ParseError) : ExecutesUnseen Q s s' (.unparsed e, s) (.unparsed e, s')
  | ran {r r' : Result} {m m' : Machine σ τ} : r'.untimed = r.untimed → m.Alike Eq Q (m'.underConfig s.config) →
      ExecutesUnseen Q s s' (r, s.after m) (r', s'.after m')

theorem ExecutesUnseen.sink {s' : Session σ τ} {r r' : Result × Session σ τ} (h : ExecutesUnseen Q s s' r r')
    (hsink : Q s.sink s'.sink) : Q r.2.sink r'.2.sink := by
  cases h with
  | unparsed => exact hsink
  | ran _ halike => exact halike.sink

theorem ExecutesUnseen.untimed {s' : Session σ τ} {r r' : Result × Session σ τ} (h : ExecutesUnseen Q s s' r r') :
    r'.1.untimed = r.1.untimed := by
  cases h with
  | unparsed => rfl
  | ran hresult _ => exact hresult

variable [ByteSource σ] [ByteSink τ]

theorem execute_unseen (hQ : FlushUnseen Q) (flush bench : Bool) (hjob : job.Parsed) (hsink : Q s.sink s.sink)
    (u : Nat) : ExecutesUnseen Q s (s.withConfig (s.config.withOutput flush bench)) (s.execute u job)
      ((s.withConfig (s.config.withOutput flush bench)).execute u job) := by
  set d := s.config.withOutput flush bench
  cases hm : s.prepare job with
  | error e =>
    have hm' : (s.withConfig d).prepare job = .error e := prepare_withConfig_eq_error rfl hm
    simp only [execute, hm, hm']
    exact .unparsed e
  | ok m =>
    obtain ⟨p, hp, rfl, hm'⟩ := exists_places (d := d) hjob rfl hm
    have hfits := World.fits_initial s.config s.feed.source s.sink
    have hfits' := World.fits_initial d s.feed.source s.sink
    have halike : World.Alike Eq Q (.initial s.config s.feed.source s.sink) (.initial d s.feed.source s.sink) :=
      .onStreams (w := .initial s.config s.feed.source s.sink) rfl hsink
    obtain ⟨e, j, w, v, hx, hx', halike'⟩ :=
      Machine.execute_unseen (i := 0) hQ (s.config.sameButOutput flush bench) hp hfits hfits' halike
        ((Machine.place p s.config 0 (.initial s.config s.feed.source s.sink)).patience u)
    rw [execute_of_prepare hm hx, execute_of_prepare hm' hx']
    refine .ran ?_ (Machine.alike_place halike')
    obtain ⟨-, -⟩ := halike'
    cases e <;> rfl

/-- the sink accepts the same bytes -/
theorem written_unseen (hQ : FlushUnseen Q) (flush bench : Bool) (hjob : job.Parsed) (hsink : Q s.sink s.sink)
    (u : Nat) : written u (s.withConfig (s.config.withOutput flush bench)) [job] = written u s [job] := by
  have hlogged := execute_unseen (s := s.logged) hQ.logged flush bench hjob ⟨hsink, rfl⟩ u
  exact (hlogged.sink ⟨hsink, rfl⟩).2

end Session

/-- under other options for flushing and timing all is the same, but for the time and for the sinks, which are related:
every state and how every step stops, what every execution comes to, and the bytes that are accepted -/
structure Session.SameUnder [ByteSource σ] [ByteSink τ] (Q : τ → τ → Prop) (s : Session σ τ) (flush bench : Bool)
    (job : Job) : Prop where
  states : ∀ m, s.prepare job = .ok m → ∃ m', (s.withConfig (s.config.withOutput flush bench)).prepare job = .ok m' ∧
    ∀ k, (m.after k).Alike Eq Q ((m'.after k).underConfig s.config) ∧ (m'.after k).step.1 = (m.after k).step.1
  execution : ∀ u, Session.ExecutesUnseen Q s (s.withConfig (s.config.withOutput flush bench)) (s.execute u job)
    ((s.withConfig (s.config.withOutput flush bench)).execute u job)
  written : ∀ u, Session.written u (s.withConfig (s.config.withOutput flush bench)) [job] = Session.written u s [job]

theorem FlushUnseen.sameUnder [ByteSource σ] [ByteSink τ] {Q : τ → τ → Prop} (hQ : FlushUnseen Q) {s : Session σ τ}
    (hsink : Q s.sink s.sink) (flush bench : Bool) {job : Job} (hjob : job.Parsed) :
    s.SameUnder Q flush bench job where
  states := by
    intro m hm
    obtain ⟨p, hp, rfl, hm'⟩ := Session.exists_places (d := s.config.withOutput flush bench) hjob rfl hm
    have halike : World.Alike Eq Q (.initial s.config s.feed.source s.sink)
        (.initial (s.config.withOutput flush bench) s.feed.source s.sink) :=
      .onStreams (w := .initial s.config s.feed.source s.sink) rfl hsink
    exact ⟨_, hm', Machine.after_unseen hQ (s.config.sameButOutput flush bench) hp (World.fits_initial _ _ _)
      (World.fits_initial _ _ _) halike⟩
  execution := s.execute_unseen hQ flush bench hjob hsink
  written := s.written_unseen hQ flush bench hjob hsink

/-- a sink with room for one byte until it is flushed -/
structure Slot where
  passed : List UInt8
  held : Option UInt8
deriving DecidableEq, Repr

instance : ByteSink Slot where
  write b t :=
    match t.held with
    | none => (none, { t with held := some b })
    | some _ => (some ⟨.device, "the slot is taken"⟩, t)
  flush t := (none, ⟨t.passed ++ t.held.toList, none⟩)

theorem neverFailsToFlush_slot (t : Slot) : NeverFailsToFlush t :=
  ⟨fun _ => True, trivial, fun _ _ => ⟨fun _ => trivial, rfl, trivial⟩⟩

end Brainfuck
