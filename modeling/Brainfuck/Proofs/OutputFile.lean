/-
Files on devices that take only so much.

A program that writes to such a file runs as it does on a buffer in memory, until the device refuses a byte; then it
stops with the fault of the device. Closing the file passes on what it holds back.

- `Sink.Unrefused limit data base`: the file was given `data`, of which the device has the first `base` bytes.
  `Sink.Refused limit data`: the device is full, and some of `data` did not fit.
- `World.Buffers`: two worlds that differ in their sinks only, one of them a file that has refused nothing and the other
  a buffer with the same bytes. A step keeps that, or the device refuses its byte (`Machine.step_buffers`); by induction
  so do a run (`Machine.run_buffers`) and an execution (`Session.execute_onDevice`).
- `Closes`: what is left when the file is closed. The device has got as much of what the program writes to a buffer as
  it has room for. If that is all, nothing else shows that there is a limit; if not, closing the file fails
  (`Session.OnDevice.closes`).
-/
import Brainfuck.CommandLine.Run
import Brainfuck.Proofs.BatchRuns

namespace Brainfuck

variable {σ : Type} {p : Program} {c : Config} {i j : Nat} {stop : Option Stop} {v v' w w' : World σ Sink}
  {limit : Limit} {data : Array UInt8} {base : Nat}

/-! ## Files -/

namespace Sink

/-- a file that was given these bytes, of which the device has so many, and that has refused none -/
structure Unrefused (limit : Limit) (data : Array UInt8) (base : Nat) (t : Sink) : Prop where
  eq : t = limited data base base limit
  base_le : base ≤ data.size
  base_le_room : base ≤ limit.room

/-- a file on a device that is full, for which some of these bytes were too many -/
inductive Refused (limit : Limit) (data : Array UInt8) : Sink → Prop where
  | full {base : Nat} : limit.room < data.size → Refused limit data (limited data base limit.room limit)

variable {t t' : Sink} {fault : Option Fault}

theorem unrefused_empty (limit : Limit) : (limited #[] 0 0 limit).Unrefused limit #[] 0 :=
  ⟨rfl, Nat.le_refl _, Nat.zero_le _⟩

theorem Unrefused.write (h : t.Unrefused limit data base) {b : UInt8} (hwrite : ByteSink.write b t = (fault, t')) :
    (fault = none ∧ ∃ base', t'.Unrefused limit (data.push b) base') ∨
      (fault = some limit.fault ∧ t'.Refused limit data) := by
  obtain ⟨rfl, hbase, hroom⟩ := h
  have hput := (put_limited b data base base limit).symm.trans hwrite
  split_ifs at hput with hbuffer hfits
  · obtain ⟨rfl, rfl⟩ := Prod.mk.inj hput
    exact .inl ⟨rfl, base, rfl, by rw [Array.size_push]; omega, hroom⟩
  · obtain ⟨rfl, rfl⟩ := Prod.mk.inj hput
    exact .inl ⟨rfl, data.size, rfl, by rw [Array.size_push]; omega, hfits⟩
  · obtain ⟨rfl, rfl⟩ := Prod.mk.inj hput
    exact .inr ⟨rfl, .full (Nat.not_le.1 hfits)⟩

theorem Unrefused.flush (h : t.Unrefused limit data base) (hflush : ByteSink.flush t = (fault, t')) :
    (fault = none ∧ t'.Unrefused limit data data.size) ∨ (fault = some limit.fault ∧ t'.Refused limit data) := by
  obtain ⟨rfl, -, -⟩ := h
  change (if data.size ≤ limit.room then _ else _) = _ at hflush
  split_ifs at hflush with hfits
  · obtain ⟨rfl, rfl⟩ := Prod.mk.inj hflush
    exact .inl ⟨rfl, rfl, Nat.le_refl _, hfits⟩
  · obtain ⟨rfl, rfl⟩ := Prod.mk.inj hflush
    exact .inr ⟨rfl, .full (Nat.not_le.1 hfits)⟩

/-- closing a file that has refused nothing passes on what the device has room for -/
theorem Unrefused.close (h : t.Unrefused limit data base) :
    t.flush.2.bytes? = some (data.take limit.room) ∧
      t.flush.1 = if data.size ≤ limit.room then none else some limit.fault := by
  obtain ⟨rfl, -, -⟩ := h
  by_cases hfits : data.size ≤ limit.room
  · have htake : data.take data.size = data.take limit.room := by
      exact (Array.extract_eq_self_of_le (Nat.le_refl _)).trans (Array.extract_eq_self_of_le hfits).symm
    simp only [Sink.flush, if_pos hfits, bytes?, htake, and_self]
  · simp only [Sink.flush, if_neg hfits, bytes?, and_self]

/-- closing a file that has refused a byte fails again -/
theorem Refused.close (h : t.Refused limit data) :
    t.flush.2.bytes? = some (data.take limit.room) ∧ t.flush.1 = some limit.fault := by
  cases h with
  | full hsize => simp only [Sink.flush, if_neg (Nat.not_le.2 hsize), bytes?, and_self]

/-- the file has refused some of the bytes that the buffer begins with -/
inductive Overran (limit : Limit) (t : Sink) : Sink → Prop where
  | buffer {data full : Array UInt8} : t.Refused limit data → data.toList <+: full.toList →
      Overran limit t (.buffer full)

theorem Overran.exists_buffer (h : t.Overran limit t') : ∃ full, t' = Sink.buffer full := by
  cases h
  exact ⟨_, rfl⟩

/-- a buffer that goes on still begins with these bytes -/
theorem sinksAlike_overran (limit : Limit) (t₀ : Sink) :
    SinksAlike fun t t' : Sink => t = t' ∧ t₀.Overran limit t := by
  apply SinksAlike.of_success
  · rintro _ _ b ⟨rfl, ⟨hrefused, hbegins⟩⟩
    refine ⟨_, _, write_buffer _ b, write_buffer _ b, rfl, .buffer hrefused ?_⟩
    rw [Array.toList_push]
    exact hbegins.trans (List.prefix_append _ _)
  · rintro _ _ ⟨rfl, ⟨hrefused, hbegins⟩⟩
    exact ⟨_, _, rfl, rfl, rfl, .buffer hrefused hbegins⟩

end Sink

/-! ## One step -/

/-- the worlds differ in their sinks only: one is a file that has refused nothing, the other a buffer with the same
bytes. Once all is passed on, the device has them all. -/
inductive World.Buffers (limit : Limit) (passed : Prop) (v : World σ Sink) : World σ Sink → Prop where
  | buffer {data : Array UInt8} {base : Nat} : v.sink.Unrefused limit data base → (passed → base = data.size) →
      Buffers limit passed v (v.onStreams v.source (.buffer data))

/-- behind a command nothing is held back if every byte is flushed, or if none was written -/
abbrev World.BuffersAt (c : Config) (limit : Limit) (v : World σ Sink) : World σ Sink → Prop :=
  v.Buffers limit (c.flushOutput = true ∨ v.outputBytes = 0)

/-- why a machine stops whose device refuses a byte -/
def Limit.refusal (limit : Limit) (i pointer : Nat) : Stop := streamStop "output sink" limit.fault i pointer

section Steps

variable [ByteSource σ]

/-- a buffer takes every byte, flushed or not -/
theorem Effect.output_buffer (c : Config) (i : Nat) (hsink : w.sink = .buffer data) :
    Effect c i .output w none { w.tick with sink := .buffer (data.push w.cell), outputBytes := w.outputBytes + 1 } := by
  have hwrite : ByteSink.write w.cell w.sink = (none, .buffer (data.push w.cell)) := by
    rw [hsink]
    exact Sink.write_buffer data w.cell
  cases hflush : c.flushOutput with
  | false => exact .output hwrite hflush
  | true => exact .outputFlush hwrite hflush rfl

/-- an output is made on both sinks, or the device refuses the byte -/
theorem Effect.buffers_output (hR : v.BuffersAt c limit w) (h : Effect c i .output v stop v') :
    (∃ w', Effect c i .output w stop w' ∧ v'.BuffersAt c limit w') ∨
      (stop = some (limit.refusal i v.pointer) ∧
        ∃ w', Effect c i .output w none w' ∧ v'.sink.Overran limit w'.sink) := by
  obtain @⟨data, base, hsink, -⟩ := hR
  have hbuffer := Effect.output_buffer (w := v.onStreams v.source (Sink.buffer data)) c i rfl
  have hmore : data.toList <+: (data.push v.cell).toList := by
    rw [Array.toList_push]
    exact List.prefix_append _ _
  cases h with
  | output hwrite hno =>
    obtain ⟨-, base', hsink'⟩ | ⟨hfault, -⟩ := hsink.write hwrite
    · refine .inl ⟨_, hbuffer, .buffer (v := { v.tick with sink := _, outputBytes := _ }) hsink' ?_⟩
      rintro (hflush | hnone)
      · rw [hno] at hflush
        cases hflush
      · cases hnone
    · cases hfault
  | outputFlush hwrite _ hflush =>
    obtain ⟨-, base', hsink'⟩ | ⟨hfault, -⟩ := hsink.write hwrite
    · obtain ⟨-, hflushed⟩ | ⟨hfault, -⟩ := hsink'.flush hflush
      · exact .inl ⟨_, hbuffer, .buffer (v := { v.tick with sink := _, outputBytes := _ }) hflushed fun _ => rfl⟩
      · cases hfault
    · cases hfault
  | writeFault hwrite =>
    obtain ⟨hfault, -⟩ | ⟨hfault, hrefused⟩ := hsink.write hwrite
    · cases hfault
    · obtain rfl := Option.some.inj hfault
      exact .inr ⟨rfl, _, hbuffer, .buffer hrefused hmore⟩
  | flushFault hwrite _ hflush =>
    obtain ⟨-, base', hsink'⟩ | ⟨hfault, -⟩ := hsink.write hwrite
    · obtain ⟨hfault, -⟩ | ⟨hfault, hrefused⟩ := hsink'.flush hflush
      · cases hfault
      · obtain rfl := Option.some.inj hfault
        exact .inr ⟨rfl, _, hbuffer, .buffer hrefused (List.prefix_refl _)⟩
    · cases hfault

/-- every command does the same on both sinks, but for an output that the device refuses -/
theorem Effect.buffers {command : Command} (hR : v.BuffersAt c limit w) (hne : command ≠ .output)
    (h : Effect c i command v stop v') : ∃ w', Effect c i command w stop w' ∧ v'.BuffersAt c limit w' := by
  obtain @⟨data, base, hsink, hpassed⟩ := hR
  obtain ⟨_, he, rfl, hkept, hcount⟩ := h.onStreams_of_silent (Sink.buffer data) hne (fun _ => rfl)
    fun _ _ _ hnext => sourcesAlike_eq.next rfl hnext
  have hsink' : v'.sink.Unrefused limit data base := hkept ▸ hsink
  refine ⟨_, he, .buffer hsink' ?_⟩
  rwa [hcount]

/-- the next step outputs a byte that the device refuses -/
def World.Overruns (p : Program) (c : Config) (i : Nat) (limit : Limit) (v w : World σ Sink) : Prop :=
  ∃ v' w', Moves p c i v (some (limit.refusal i v.pointer)) i v' ∧ Moves p c i w none (i + 1) w' ∧
    v'.sink.Overran limit w'.sink

/-- every other step is made on both sinks -/
theorem Moves.buffers (hR : v.BuffersAt c limit w) (hno : ¬ v.Overruns p c i limit w) (h : Moves p c i v stop j v') :
    ∃ w', Moves p c i w stop j w' ∧ v'.BuffersAt c limit w' := by
  have hallowed : v.Allowed c → w.Allowed c := by
    obtain ⟨-, -⟩ := hR
    exact id
  apply h.transfer (fun _ hmax _ => hmax) hallowed _ _ hR
  · intro command stop v' ha hc he
    by_cases hcommand : command = .output
    · subst hcommand
      rcases he.buffers_output hR with hboth | ⟨rfl, w', he', hover⟩
      · exact hboth
      · exact absurd ⟨v', w', .plainStop ha hc he, .plain (hallowed ha) hc he', hover⟩ hno
    · exact he.buffers hR hcommand
  · rintro v _ ⟨-, -⟩
    exact ⟨rfl, rfl, rfl⟩
  · rintro v _ ⟨hsink, hpassed⟩
    exact .buffer (v := v.tick) hsink hpassed

/-! ## Runs -/

namespace Machine

/-- a step is made on both sinks, or the device refuses its byte -/
theorem step_buffers (hp : p.WellFormed) (hv : v.Fits c) (hw : w.Fits c) (hR : v.BuffersAt c limit w) :
    (∃ stop j v' w', (place p c i v).step = (stop, place p c j v') ∧ (place p c i w).step = (stop, place p c j w') ∧
      v'.Fits c ∧ w'.Fits c ∧ v'.BuffersAt c limit w') ∨
    ∃ v' w', (place p c i v).step = (some (limit.refusal i v.pointer), place p c i v') ∧
      (place p c i w).step = (none, place p c (i + 1) w') ∧ w'.Fits c ∧ v'.sink.Overran limit w'.sink := by
  by_cases hover : v.Overruns p c i limit w
  · obtain ⟨v', w', hmove, hmove', hsinks⟩ := hover
    exact .inr ⟨v', w', step_of_moves hp hv hmove, step_of_moves hp hw hmove', hmove'.fits hw, hsinks⟩
  · exact .inl (step_pair hp hv hw fun _ _ _ hmove => hmove.buffers hR hover)

/-- a machine that goes on writing to a buffer does not change what it began with -/
theorem overran_run (hp : p.WellFormed) (hw : w.Fits c) {t : Sink} (h : t.Overran limit w.sink) (n : Nat) :
    ∃ e j w', (place p c i w).run n = (e, place p c j w') ∧ t.Overran limit w'.sink := by
  have hself : World.Alike Eq (fun t₁ t₂ => t₁ = t₂ ∧ t.Overran limit t₁) w w := .onStreams rfl ⟨rfl, h⟩
  obtain ⟨e, j, w', _, hrun, -, ⟨-, -, hover⟩⟩ :=
    run_pair (i := i) hp (fun _ _ _ _ _ hv _ _ _ hmove =>
      hmove.alike sourcesAlike_eq (Sink.sinksAlike_overran limit t) hv) hw hw hself n
  exact ⟨e, j, w', hrun, hover⟩

/-- a run ends alike on both sinks, or it is stopped by the device -/
theorem run_buffers (hp : p.WellFormed) (hv : v.Fits c) (hw : w.Fits c) (hR : v.BuffersAt c limit w) (n : Nat) :
    (∃ e j v' w', (place p c i v).run n = (e, place p c j v') ∧ (place p c i w).run n = (e, place p c j w') ∧
      v'.BuffersAt c limit w') ∨
    ∃ stop j v' e k w', (place p c i v).run n = (.stopped stop, place p c j v') ∧
      (place p c i w).run n = (e, place p c k w') ∧ v'.sink.Overran limit w'.sink := by
  have hfin : (place p c i w).finished = (place p c i v).finished := rfl
  induction n generalizing i v w with
  | zero =>
    cases hdone : (place p c i v).finished with
    | true => exact .inl ⟨_, i, v, w, run_of_finished hdone 0, run_of_finished (hfin.trans hdone) 0, hR⟩
    | false =>
      exact .inl ⟨_, i, v, w, run_zero_of_unfinished hdone, run_zero_of_unfinished (hfin.trans hdone), hR⟩
  | succ n ih =>
    cases hdone : (place p c i v).finished with
    | true => exact .inl ⟨_, i, v, w, run_of_finished hdone _, run_of_finished (hfin.trans hdone) _, hR⟩
    | false =>
      obtain ⟨stop, j, v₁, w₁, hs, hs', hv₁, hw₁, hR₁⟩ | ⟨v₁, w₁, hs, hs', hw₁, hover⟩ :=
        step_buffers (i := i) hp hv hw hR
      · cases stop with
        | some s => exact .inl ⟨_, j, v₁, w₁, run_of_stop hdone hs n, run_of_stop (hfin.trans hdone) hs' n, hR₁⟩
        | none =>
          rw [run_of_step hdone hs, run_of_step (hfin.trans hdone) hs']
          exact ih hv₁ hw₁ hR₁ rfl
      · obtain ⟨e, k, w', hrun, hover'⟩ := overran_run (i := i + 1) hp hw₁ hover n
        rw [run_of_stop hdone hs, run_of_step (hfin.trans hdone) hs']
        exact .inr ⟨_, i, v₁, e, k, w', rfl, hrun, hover'⟩

end Machine

omit [ByteSource σ] in
/-- the last flush passes all on, or the device refuses it -/
theorem Completes.buffers (hR : v.BuffersAt c limit w) (h : Completes c i v stop v') :
    (stop = none ∧ v'.Buffers limit True w) ∨
      (stop = some (limit.refusal i v.pointer) ∧ v'.sink.Overran limit w.sink) := by
  obtain ⟨hsink, hpassed⟩ := hR
  cases h with
  | nothing hno => exact .inl ⟨rfl, .buffer hsink fun _ => hpassed hno⟩
  | flush _ _ hflush =>
    obtain ⟨-, hflushed⟩ | ⟨hfault, -⟩ := hsink.flush hflush
    · exact .inl ⟨rfl, .buffer (v := { v with sink := _ }) hflushed fun _ => rfl⟩
    · cases hfault
  | fault _ _ hflush =>
    obtain ⟨hfault, -⟩ | ⟨hfault, hrefused⟩ := hsink.flush hflush
    · cases hfault
    · obtain rfl := Option.some.inj hfault
      exact .inr ⟨rfl, .buffer hrefused (List.prefix_refl _)⟩

/-- an execution ends alike on both sinks, and if it is finished the device has all bytes; or the device stops it -/
theorem Machine.execute_buffers (hp : p.WellFormed) (hv : v.Fits c) (hw : w.Fits c) (hR : v.BuffersAt c limit w)
    (u : Nat) :
    (∃ e j v' w', (place p c i v).execute u = (e, place p c j v') ∧
      (place p c i w).execute u = (e, place p c j w') ∧ v'.Buffers limit (e = .finished) w') ∨
    ∃ stop j v' e k w', (place p c i v).execute u = (.stopped stop, place p c j v') ∧
      (place p c i w).execute u = (e, place p c k w') ∧ v'.sink.Overran limit w'.sink := by
  obtain ⟨e, j, v₁, w₁, hrun, hrun', hR₁⟩ | ⟨stop, j, v₁, e, k, w₁, hrun, hrun', hover⟩ :=
    run_buffers (i := i) hp hv hw hR u
  · obtain ⟨full, hfull⟩ : ∃ full, w₁.sink = .buffer full := by
      obtain ⟨-, -⟩ := hR₁
      exact ⟨_, rfl⟩
    have hx' := execute_of_buffer hrun' hfull
    cases e with
    | finished =>
      obtain ⟨stop, v', hcomplete⟩ := exists_completes c j v₁
      have hx := execute_of_completes hrun hcomplete
      obtain ⟨rfl, hR'⟩ | ⟨rfl, hover⟩ := hcomplete.buffers hR₁
      · obtain ⟨hsink, hpassed⟩ := hR'
        exact .inl ⟨_, j, v', _, hx, hx', .buffer hsink fun _ => hpassed trivial⟩
      · exact .inr ⟨_, j, v', _, j, w₁, hx, hx', hover⟩
    | stopped | unfinished =>
      obtain ⟨hsink, -⟩ := hR₁
      exact .inl ⟨_, j, v₁, _, by simp only [execute, hrun], hx', .buffer hsink (by rintro ⟨⟩)⟩
  · obtain ⟨full, hfull⟩ := hover.exists_buffer
    have hx : (place p c i v).execute u = (.stopped stop, place p c j v₁) := by simp only [execute, hrun]
    exact .inr ⟨stop, j, v₁, e, k, w₁, hx, execute_of_buffer hrun' hfull, hover⟩

end Steps

/-! ## Executions -/

namespace Session

/-- what an execution comes to whose output goes to a file, and the same one that writes to a buffer: neither can parse
the program, or the results are the same, or the device stops the program -/
inductive OnDevice (limit : Limit) (s s' : Session σ Sink) :
    Result × Session σ Sink → Result × Session σ Sink → Prop where
  | unparsed (e : ParseError) : OnDevice limit s s' (.unparsed e, s) (.unparsed e, s')
  | taken {r : Result} {m m' : Machine σ Sink} {data : Array UInt8} {base : Nat} :
      m.sink.Unrefused limit data base → ((∃ i, r = .done i) → base = data.size) → m'.sink = .buffer data →
      OnDevice limit s s' (r, s.after m) (r, s'.after m')
  | refused {stop : Stop} {r : Result} {m m' : Machine σ Sink} : m.sink.Overran limit m'.sink →
      OnDevice limit s s' (.stopped stop, s.after m) (r, s'.after m')

theorem execute_onDevice [ByteSource σ] (config : Config) (feed : Feed σ) (limit : Limit) {job : Job}
    (hjob : job.Parsed) (u : Nat) :
    OnDevice limit (.start config feed (.limited #[] 0 0 limit)) (.start config feed (.buffer #[]))
      ((start config feed (.limited #[] 0 0 limit)).execute u job)
      ((start config feed (.buffer #[])).execute u job) := by
  set s : Session σ Sink := start config feed (.limited #[] 0 0 limit)
  set s' : Session σ Sink := start config feed (.buffer #[])
  cases hprogram : job.program config with
  | error e =>
    have hm : s.prepare job = .error e := s.prepare_eq_error hprogram
    have hm' : s'.prepare job = .error e := s'.prepare_eq_error hprogram
    simp only [execute, hm, hm']
    exact .unparsed e
  | ok p =>
    have hp := Job.wellFormed_of_program hjob hprogram
    have hm : s.prepare job = .ok (.place p config 0 (.initial config feed.source (.limited #[] 0 0 limit))) :=
      s.prepare_eq_place hprogram
    have hm' : s'.prepare job = .ok (.place p config 0 (.initial config feed.source (.buffer #[]))) :=
      s'.prepare_eq_place hprogram
    have hR : (World.initial config feed.source (Sink.limited #[] 0 0 limit)).BuffersAt config limit
        (.initial config feed.source (.buffer #[])) :=
      .buffer (v := .initial config feed.source _) (Sink.unrefused_empty limit) fun _ => rfl
    obtain ⟨e, j, v, w, hx, hx', hboth⟩ | ⟨stop, j, v, e, k, w, hx, hx', hover⟩ :=
      Machine.execute_buffers (i := 0) hp (World.fits_initial ..) (World.fits_initial ..) hR
        ((Machine.place p config 0 (.initial config feed.source (Sink.limited #[] 0 0 limit))).patience u)
    · rw [execute_of_prepare hm hx, execute_of_prepare hm' hx']
      obtain @⟨data, base, hsinks, hpassed⟩ := hboth
      have hresult : Result.of (Machine.place p config j (v.onStreams v.source (Sink.buffer data))) e =
          .of (.place p config j v) e := by cases e <;> rfl
      rw [hresult]
      refine .taken hsinks ?_ rfl
      rintro ⟨i, hdone⟩
      cases e with
      | finished => exact hpassed rfl
      | stopped | unfinished => cases hdone
    · rw [execute_of_prepare hm hx, execute_of_prepare hm' hx']
      exact .refused hover

end Session

/-! ## The end -/

/-- what a program has come to, and what closing its output file comes to, if on a buffer it comes to `r` and writes
`bytes`: the device has them all and nothing shows that there is a limit, or it has as many as it takes, the file cannot
be closed, and the program was not done -/
inductive Closes (limit? : Option Limit) (r : Result) (bytes : Array UInt8) : Result → Option Fault × Sink → Prop where
  | fits {t : Sink} : (∀ limit, limit? = some limit → bytes.size ≤ limit.room) → t.bytes? = some bytes →
      Closes limit? r bytes r (none, t)
  | full {limit : Limit} {r' : Result} {t : Sink} : limit? = some limit → limit.room < bytes.size →
      (∀ i, r' ≠ .done i) → (r' = r ∨ ∃ stop, r' = .stopped stop) → t.bytes? = some (bytes.take limit.room) →
      Closes limit? r bytes r' (some limit.fault, t)

/-- the file of a program that is done can be closed -/
theorem Closes.flush_of_done {limit? : Option Limit} {r : Result} {bytes : Array UInt8} {i : Info}
    {closed : Option Fault × Sink} (h : Closes limit? r bytes (.done i) closed) : closed.1 = none := by
  cases h with
  | fits => rfl
  | full _ _ hdone => exact absurd rfl (hdone i)

theorem toList_take (a : Array UInt8) (n : Nat) : (a.take n).toList = a.toList.take n := by
  rw [Array.take_eq_extract, Array.toList_extract, List.extract_eq_take_drop, Nat.sub_zero, List.drop_zero]

/-- what is cut off behind the first bytes does not matter for these -/
theorem take_of_prefix {full : Array UInt8} {n : Nat} (h : data.toList <+: full.toList) (hn : n ≤ data.size) :
    full.take n = data.take n := by
  obtain ⟨rest, hrest⟩ := h
  apply Array.toList_inj.1
  rw [toList_take, toList_take, ← hrest]
  exact List.take_append_of_le_length (by rwa [Array.length_toList])

theorem Sink.Unrefused.closes {t : Sink} {r : Result} (h : t.Unrefused limit data base)
    (hdone : (∃ i, r = .done i) → base = data.size) : Closes (some limit) r data r t.flush := by
  obtain ⟨hbytes, hfault⟩ := h.close
  by_cases hfits : data.size ≤ limit.room
  · rw [if_pos hfits] at hfault
    have htake : data.take limit.room = data := Array.extract_eq_self_of_le hfits
    rw [htake] at hbytes
    have hflush : t.flush = (none, t.flush.2) := Prod.ext hfault rfl
    rw [hflush]
    refine .fits ?_ hbytes
    rintro _ ⟨⟩
    exact hfits
  · rw [if_neg hfits] at hfault
    have hflush : t.flush = (some limit.fault, t.flush.2) := Prod.ext hfault rfl
    rw [hflush]
    refine .full rfl (Nat.not_le.1 hfits) (fun i hi => hfits ?_) (.inl rfl) hbytes
    exact hdone ⟨i, hi⟩ ▸ h.base_le_room

theorem Sink.Refused.closes {t : Sink} {r : Result} {full : Array UInt8} (h : t.Refused limit data)
    (hbegins : data.toList <+: full.toList) (stop : Stop) : Closes (some limit) r full (.stopped stop) t.flush := by
  obtain ⟨hbytes, hfault⟩ := h.close
  have hsize : limit.room < data.size := by
    cases h
    assumption
  have hmore : data.size ≤ full.size := hbegins.length_le
  have hflush : t.flush = (some limit.fault, t.flush.2) := Prod.ext hfault rfl
  rw [hflush]
  refine .full rfl (Nat.lt_of_lt_of_le hsize hmore) (by simp) (.inr ⟨stop, rfl⟩) ?_
  rw [hbytes, take_of_prefix hbegins (Nat.le_of_lt hsize)]

theorem Session.OnDevice.closes {s s' : Session σ Sink} {x x' : Result × Session σ Sink} (h : OnDevice limit s s' x x')
    (hsink : s.sink = .limited #[] 0 0 limit) (hsink' : s'.sink = .buffer #[]) :
    Closes (some limit) x'.1 (x'.2.sink.bytes?.getD #[]) x.1 x.2.sink.flush := by
  cases h with
  | unparsed e =>
    rw [hsink, hsink']
    exact (Sink.unrefused_empty limit).closes fun _ => rfl
  | @taken r m m' data base hunrefused hdone hbuffer =>
    simp only [after, hbuffer, Sink.bytes?, Option.getD_some]
    exact hunrefused.closes hdone
  | @refused stop r m m' hover =>
    obtain ⟨full, hbuffer⟩ := hover.exists_buffer
    rw [hbuffer] at hover
    obtain ⟨hrefused, hbegins⟩ := hover
    simp only [after, hbuffer, Sink.bytes?, Option.getD_some]
    exact hrefused.closes hbegins stop

/-! ## Tasks -/

namespace CommandLine

theorem Conclusion.close_none (c : Conclusion) : c.close none = c := by
  unfold close
  split
  · rfl
  · rfl
  · cases ‹none = some _›

/-- a file that cannot be closed -/
theorem Conclusion.close_some {f : Fault} {c : Conclusion} (h : c.verdict ≠ .unfinished) :
    (c.close (some f)).verdict = .escaped (.stop (.fault f)) ∧ (c.close (some f)).output = [] := by
  unfold close
  split
  · exact absurd ‹_› h
  · cases ‹some f = none›
  · cases ‹some f = some _›
    exact ⟨rfl, rfl⟩

/-- an end that is no escape was the end before the file was closed -/
theorem Conclusion.verdict_of_close {refusal : Option Fault} {c : Conclusion} {v : Verdict}
    (h : (c.close refusal).verdict = v) (hv : ∀ e, v ≠ .escaped e) : c.verdict = v := by
  unfold close at h
  split at h
  · exact h
  · exact h
  · exact absurd h.symm (hv _)

/-- what closing the output comes to, if the input has bytes -/
theorem Task.closes {t : Task} {s : Surroundings} {source : Source} (patience : Nat)
    (hsource : t.arguments.source s.input = .ok source) :
    Closes (t.place.bind s.files.limit?) (Batch.runFrom patience (.text t.code) source t.config).1
      (Batch.runFrom patience (.text t.code) source t.config).2 (t.ran patience s).1
      (t.ran patience s).2.sink.flush := by
  unfold Task.ran Task.sink
  simp only [hsource]
  cases t.place.bind s.files.limit? with
  | none =>
    have hx := Eq.refl ((Session.start t.config (.shared source) (Sink.stream #[])).execute patience
      (.script (.text t.code)))
    obtain ⟨data, hstream, hrun⟩ := Batch.runFrom_of_toStream hx
    simp only [hrun, hstream]
    refine .fits ?_ rfl
    rintro _ ⟨⟩
  | some limit =>
    rw [Batch.runFrom_of_execute rfl]
    exact (Session.execute_onDevice t.config (.shared source) limit (Job.parsed_script _) patience).closes rfl rfl

end CommandLine

end Brainfuck
