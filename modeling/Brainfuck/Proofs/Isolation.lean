/-
Programs in one session do not disturb each other.

- `Session.afterAll u jobs s`: the session after these programs, one after another, each run to its end or not.
- `Session.Alike R Q`: two sessions of one configuration whose feeds and sinks are related. Programs keep that
  (`Alike.execute`, and by induction `Alike.afterAll`); the last machine is left out, so a session with a past can be
  compared to a new one.
- `Session.written`, `Session.delivered`: the bytes that the sink accepts in such a session, and what it reads from a
  source that is shared. They come from logs that change nothing else.
- `executions_are_isolated`: with a sink that never fails, a program comes to what it comes to in a new session on the
  input that is left. Data is left as it was; of a shared source the programs before have taken the readings from its
  front, each once. The last machine is the one of the last program that could be parsed.
-/
import Brainfuck.Proofs.Interchange
import Brainfuck.Proofs.Logging

namespace Brainfuck

variable {σ σ' τ τ' : Type}

/-! ## Related sessions -/

/-- feeds of the same kind on related sources -/
inductive Feed.Alike (R : σ → σ' → Prop) : Feed σ → Feed σ' → Prop where
  | replayed {s : σ} {s' : σ'} : R s s' → Alike R (.replayed s) (.replayed s')
  | shared {s : σ} {s' : σ'} : R s s' → Alike R (.shared s) (.shared s')

namespace Feed.Alike

variable {R : σ → σ' → Prop} {f : Feed σ} {f' : Feed σ'}

theorem source (h : f.Alike R f') : R f.source f'.source := by
  cases h <;> assumption

theorem after {rest : σ} {rest' : σ'} (h : f.Alike R f') (hrest : R rest rest') :
    (f.after rest).Alike R (f'.after rest') := by
  cases h with
  | replayed hs => exact .replayed hs
  | shared _ => exact .shared hrest

theorem eq {g : Feed σ} (h : f.Alike Eq g) : f = g := by
  cases h with
  | replayed h | shared h => rw [h]

theorem refl (f : Feed σ) : f.Alike Eq f := by
  cases f with
  | replayed => exact .replayed rfl
  | shared => exact .shared rfl

end Feed.Alike

/-- the feed with an empty log on its source -/
def Feed.logged : Feed σ → Feed (LoggedSource σ)
  | replayed s => replayed ⟨s, []⟩
  | shared s => shared ⟨s, []⟩

@[simp] theorem Feed.source_logged (f : Feed σ) : f.logged.source = ⟨f.source, []⟩ := by cases f <;> rfl

theorem Feed.alike_logged {R : σ → LoggedSource σ → Prop} {f : Feed σ} (h : R f.source ⟨f.source, []⟩) :
    f.Alike R f.logged := by
  cases f with
  | replayed => exact .replayed h
  | shared => exact .shared h

/-- sessions of one configuration, with feeds and sinks that are related -/
structure Session.Alike (R : σ → σ' → Prop) (Q : τ → τ' → Prop) (s : Session σ τ) (s' : Session σ' τ') : Prop where
  config : s'.config = s.config
  feed : s.feed.Alike R s'.feed
  sink : Q s.sink s'.sink

/-! ## Programs one after another -/

section Runs

variable [ByteSource σ] [ByteSource σ'] [ByteSink τ] [ByteSink τ']

namespace Session

/-- the session after these programs -/
def afterAll (u : Nat) : List Job → Session σ τ → Session σ τ
  | [], s => s
  | job :: jobs, s => afterAll u jobs (s.execute u job).2

variable {R : σ → σ' → Prop} {Q : τ → τ' → Prop} {s : Session σ τ} {s' : Session σ' τ'} {u : Nat} {job : Job}
  {jobs : List Job} {e : ParseError} {p : Program}

theorem afterAll_append (u : Nat) (jobs jobs' : List Job) (s : Session σ τ) :
    s.afterAll u (jobs ++ jobs') = (s.afterAll u jobs).afterAll u jobs' := by
  induction jobs generalizing s with
  | nil => rfl
  | cons job jobs ih => exact ih _

/-- a program that cannot be parsed leaves the session as it is -/
theorem execute_of_unparsed (h : job.program s.config = .error e) : s.execute u job = (.unparsed e, s) := by
  simp only [execute, s.prepare_eq_error h]

/-- a program that can be parsed leaves its machine, however its run ended -/
theorem execute_of_parsed (h : job.program s.config = .ok p) :
    ∃ m, s.prepare job = .ok m ∧ (s.execute u job).2 = s.after (m.execute (m.patience u)).2 := by
  have hm := s.prepare_eq_place h
  exact ⟨_, hm, congrArg Prod.snd (execute_of_prepare hm (Prod.eta _).symm)⟩

/-- what a run keeps holds after any number of programs -/
theorem afterAll_keeps {P : Session σ τ → Prop} (hkeep : ∀ s m, P s → P (s.after m)) (h : P s) (u : Nat)
    (jobs : List Job) : P (s.afterAll u jobs) := by
  induction jobs generalizing s with
  | nil => exact h
  | cons job jobs ih =>
    apply ih
    cases hp : job.program s.config with
    | error e =>
      rw [execute_of_unparsed hp]
      exact h
    | ok p =>
      obtain ⟨m, -, hs⟩ := execute_of_parsed (u := u) hp
      rw [hs]
      exact hkeep s _ h

theorem afterAll_config (u : Nat) (jobs : List Job) (s : Session σ τ) : (s.afterAll u jobs).config = s.config :=
  afterAll_keeps (P := fun t => t.config = s.config) (fun _ _ h => h) rfl u jobs

theorem afterAll_replayed {data : σ} (h : s.feed = .replayed data) (u : Nat) (jobs : List Job) :
    (s.afterAll u jobs).feed = .replayed data := by
  refine afterAll_keeps (P := fun s => s.feed = .replayed data) (fun s m h => ?_) h u jobs
  simp only [Session.after, h, Feed.after]

theorem afterAll_shared {source : σ} (h : s.feed = .shared source) (u : Nat) (jobs : List Job) :
    ∃ rest, (s.afterAll u jobs).feed = .shared rest := by
  refine afterAll_keeps (P := fun s => ∃ rest, s.feed = .shared rest) ?_ ⟨source, h⟩ u jobs
  rintro s m ⟨rest, h⟩
  exact ⟨m.source, by simp only [Session.after, h, Feed.after]⟩

theorem afterAll_of_unparsed (h : ∀ job ∈ jobs, ∃ e, job.program s.config = .error e) : s.afterAll u jobs = s := by
  induction jobs with
  | nil => rfl
  | cons job jobs ih =>
    obtain ⟨e, he⟩ := h job List.mem_cons_self
    rw [afterAll, execute_of_unparsed he]
    exact ih fun job hjob => h job (List.mem_cons_of_mem _ hjob)

/-! ## Programs keep sessions related -/

/-- one program in related sessions has one result and leaves them related -/
theorem Alike.execute (hR : SourcesAlike R) (hQ : SinksAlike Q) (h : s.Alike R Q s') (hjob : job.Parsed) (u : Nat) :
    (s'.execute u job).1 = (s.execute u job).1 ∧ (s.execute u job).2.Alike R Q (s'.execute u job).2 := by
  have hboth := execute_alike hR hQ h.config h.feed.source h.sink hjob u
  refine ⟨hboth.result_eq, ?_⟩
  generalize s.execute u job = r at hboth ⊢
  generalize s'.execute u job = r' at hboth ⊢
  cases hboth with
  | unparsed => exact h
  | ran _ halike => exact ⟨h.config, h.feed.after halike.source, halike.sink⟩

theorem Alike.afterAll (hR : SourcesAlike R) (hQ : SinksAlike Q) (h : s.Alike R Q s')
    (hjobs : ∀ job ∈ jobs, job.Parsed) (u : Nat) : (s.afterAll u jobs).Alike R Q (s'.afterAll u jobs) := by
  induction jobs generalizing s s' with
  | nil => exact h
  | cons job jobs ih =>
    have hnext := (h.execute hR hQ (hjobs job List.mem_cons_self) u).2
    exact ih hnext fun job hjob => hjobs job (List.mem_cons_of_mem _ hjob)

/-! ## Logs -/

/-- the session with empty logs -/
def logged (s : Session σ τ) : Session (LoggedSource σ) (LoggedSink τ) where
  config := s.config
  feed := s.feed.logged
  sink := .new s.sink
  last := s.last.map fun m => m.onStreams ⟨m.source, []⟩ (.new m.sink)

/-- the bytes that the sink accepts from these programs -/
def written (u : Nat) (s : Session σ τ) (jobs : List Job) : List UInt8 := (s.logged.afterAll u jobs).sink.accepted

/-- what these programs read from a shared source -/
def delivered (u : Nat) (s : Session σ τ) (jobs : List Job) : List Reading :=
  (s.logged.afterAll u jobs).feed.source.given

omit [ByteSource σ] [ByteSink τ] in
theorem alike_logged {R : σ → LoggedSource σ → Prop} (h : R s.feed.source ⟨s.feed.source, []⟩) :
    s.Alike R (fun t l => l.sink = t) s.logged :=
  ⟨rfl, Feed.alike_logged h, rfl⟩

end Session

/-! ## A session with a past and a new one -/

/-- sinks that never fail need not be related otherwise -/
theorem sinksAlike_reliable : SinksAlike fun (t : τ) (t' : τ') => Reliable t ∧ Reliable t' := by
  apply SinksAlike.of_success
  · rintro t t' b ⟨h, h'⟩
    obtain ⟨r, hr, hrest⟩ := h.write b
    obtain ⟨r', hr', hrest'⟩ := h'.write b
    exact ⟨r, r', hr, hr', hrest, hrest'⟩
  · rintro t t' ⟨h, h'⟩
    obtain ⟨r, hr, hrest⟩ := h.flush
    obtain ⟨r', hr', hrest'⟩ := h'.flush
    exact ⟨r, r', hr, hr', hrest, hrest'⟩

/-- related sinks accept the same bytes -/
theorem SinksAlike.logged {Q : τ → τ' → Prop} (hQ : SinksAlike Q) :
    SinksAlike fun (l : LoggedSink τ) (l' : LoggedSink τ') => Q l.sink l'.sink ∧ l'.accepted = l.accepted where
  write := by
    rintro l l' b fault rest ⟨hsink, hsame⟩ hwrite
    obtain ⟨hw, haccepted, -⟩ := LoggedSink.of_write hwrite
    obtain ⟨r', hw', hrest⟩ := hQ.write hsink hw
    refine ⟨_, LoggedSink.write_eq hw', hrest, ?_⟩
    rw [haccepted, hsame]
  flush := by
    rintro l l' fault rest ⟨hsink, hsame⟩ hflush
    obtain ⟨hf, haccepted, -⟩ := LoggedSink.of_flush hflush
    obtain ⟨r', hf', hrest⟩ := hQ.flush hsink hf
    exact ⟨_, LoggedSink.flush_eq hf', hrest, hsame.trans haccepted.symm⟩

/-- the source is what some number of reads left of the origin, and the log says what they gave -/
def ReadFrom (origin s : σ) (l : LoggedSource σ) : Prop :=
  ∃ n, s = ByteSource.left n origin ∧ l = ⟨s, ByteSource.readings n origin⟩

theorem sourcesAlike_readFrom (origin : σ) : SourcesAlike (ReadFrom origin) where
  next := by
    rintro _ _ reading rest ⟨n, rfl, rfl⟩ hread
    have hleft : rest = ByteSource.left (n + 1) origin := by rw [ByteSource.left_succ, hread]
    refine ⟨⟨rest, ByteSource.readings (n + 1) origin⟩, ?_, n + 1, hleft, rfl⟩
    rw [LoggedSource.next_eq _ hread, ByteSource.readings_succ, hread]

namespace Session

/-- what is seen of a program in each of two sessions: the same result, bytes and readings, the same input left for the
next program, and, if it can be parsed, the same last machine, its streams apart -/
structure BehavesAs (u : Nat) (job : Job) (s : Session σ τ) (s' : Session σ τ') : Prop where
  result : (s'.execute u job).1 = (s.execute u job).1
  written : s'.written u [job] = s.written u [job]
  delivered : s'.delivered u [job] = s.delivered u [job]
  feed : (s'.execute u job).2.feed = (s.execute u job).2.feed
  last : ∀ p, job.program s.config = .ok p →
    (s'.execute u job).2.last.map Machine.bare = (s.execute u job).2.last.map Machine.bare

variable {s : Session σ τ} {s' : Session σ τ'} {job : Job}

/-- sessions on the same input behave alike if their sinks never fail -/
theorem behavesAs (hconfig : s'.config = s.config) (hfeed : s'.feed = s.feed) (hs : Reliable s.sink)
    (hs' : Reliable s'.sink) (hjob : job.Parsed) (u : Nat) : BehavesAs u job s s' := by
  have halike : s.Alike Eq (fun t t' => Reliable t ∧ Reliable t') s' :=
    ⟨hconfig, hfeed ▸ .refl s.feed, hs, hs'⟩
  obtain ⟨hresult, hafter⟩ := halike.execute sourcesAlike_eq sinksAlike_reliable hjob u
  -- the same of the sessions with logs
  have hlogged : s.logged.Alike Eq
      (fun l l' => (Reliable l.sink ∧ Reliable l'.sink) ∧ l'.accepted = l.accepted) s'.logged := by
    refine ⟨hconfig, ?_, ⟨hs, hs'⟩, rfl⟩
    simp only [logged, hfeed]
    exact .refl s.feed.logged
  have honly : ∀ j ∈ [job], j.Parsed := List.forall_mem_singleton.2 hjob
  have hlogs := hlogged.afterAll sourcesAlike_eq sinksAlike_reliable.logged honly u
  refine ⟨hresult, hlogs.sink.2, ?_, hafter.feed.eq.symm, ?_⟩
  · rw [delivered, delivered, hlogs.feed.eq]
  · intro p hp
    have hboth := execute_alike sourcesAlike_eq sinksAlike_reliable hconfig halike.feed.source halike.sink hjob u
    generalize s.execute u job = r at hboth ⊢
    generalize s'.execute u job = r' at hboth ⊢
    cases hboth with
    | unparsed he => rw [hp] at he; cases he
    | ran _ halike => exact congrArg some halike.bare_eq

theorem reliable_afterAll (hs : Reliable s.sink) {jobs : List Job} (hjobs : ∀ job ∈ jobs, job.Parsed) (u : Nat) :
    Reliable (s.afterAll u jobs).sink := by
  have halike : s.Alike Eq (fun t t' => Reliable t ∧ Reliable t') s := ⟨rfl, .refl s.feed, hs, hs⟩
  exact (halike.afterAll sourcesAlike_eq sinksAlike_reliable hjobs u).sink.1

/-- from a shared source the programs took the readings at its front, and left the others -/
theorem exists_delivered {source : σ} (h : s.feed = .shared source) {jobs : List Job}
    (hjobs : ∀ job ∈ jobs, job.Parsed) (u : Nat) :
    ∃ n, (s.afterAll u jobs).feed = .shared (ByteSource.left n source) ∧
      s.delivered u jobs = ByteSource.readings n source := by
  have hnone : ReadFrom source s.feed.source ⟨s.feed.source, []⟩ := ⟨0, congrArg Feed.source h, rfl⟩
  have hlogs := (alike_logged hnone).afterAll (sourcesAlike_readFrom source) sinksAlike_logged hjobs u
  obtain ⟨rest, hrest⟩ := afterAll_shared h u jobs
  obtain ⟨n, hleft, hlog⟩ := hlogs.feed.source
  refine ⟨n, ?_, congrArg LoggedSource.given hlog⟩
  rw [← hleft, hrest]
  rfl

end Session

/-- **Programs in one session are isolated.** After any programs, a program behaves as in a new session with another
sink and the input that is left. Data is left as it was. From a shared source the programs before took the readings at
its front, each once, and left the others. A program that cannot be parsed changes nothing, reads nothing and writes
nothing. The last machine is that of the last program that could be parsed, however its run ended. -/
theorem executions_are_isolated (config : Config) (feed : Feed σ) (sink : τ) (fresh : τ') (hsink : Reliable sink)
    (hfresh : Reliable fresh) (before : List Job) (job : Job) (hbefore : ∀ job ∈ before, job.Parsed)
    (hjob : job.Parsed) (u : Nat) :
    let first := Session.start config feed sink
    let s := first.afterAll u before
    Session.BehavesAs u job (.start config s.feed fresh) s ∧
      (∀ data, feed = .replayed data → s.feed = .replayed data) ∧
      (∀ source, feed = .shared source → ∃ n, s.feed = .shared (ByteSource.left n source) ∧
        first.delivered u before = ByteSource.readings n source) ∧
      (∀ e, job.program config = .error e →
        s.execute u job = (.unparsed e, s) ∧ s.written u [job] = [] ∧ s.delivered u [job] = []) ∧
      ((∀ job ∈ before, ∃ e, job.program config = .error e) → s.last = none) ∧
      ∀ p, job.program config = .ok p → ∃ m, s.prepare job = .ok m ∧
        ∀ rest : List Job, (∀ job ∈ rest, ∃ e, job.program config = .error e) →
          (first.afterAll u (before ++ job :: rest)).last = some (m.execute (m.patience u)).2 := by
  intro first s
  have hconfig : s.config = config := Session.afterAll_config u before first
  have hs : Reliable s.sink := Session.reliable_afterAll (s := first) hsink hbefore u
  refine ⟨?_, ?_, ?_, ?_, ?_, ?_⟩
  · exact Session.behavesAs (s := .start config s.feed fresh) hconfig rfl hfresh hs hjob u
  · intro data hfeed
    exact Session.afterAll_replayed hfeed u before
  · intro source hfeed
    exact Session.exists_delivered (s := first) hfeed hbefore u
  · intro e he
    have he' : job.program s.config = .error e := hconfig ▸ he
    have hlogged : s.logged.execute u job = (.unparsed e, s.logged) := Session.execute_of_unparsed he'
    refine ⟨Session.execute_of_unparsed he', ?_, ?_⟩
    · rw [Session.written, Session.afterAll, hlogged]
      rfl
    · rw [Session.delivered, Session.afterAll, hlogged]
      exact congrArg LoggedSource.given s.feed.source_logged
  · intro hall
    exact congrArg Session.last (Session.afterAll_of_unparsed (s := first) hall)
  · intro p hp
    obtain ⟨m, hm, hafter⟩ := Session.execute_of_parsed (s := s) (u := u) (hconfig ▸ hp)
    refine ⟨m, hm, fun rest hrest => ?_⟩
    have hnext : (first.afterAll u (before ++ job :: rest)) = s.after (m.execute (m.patience u)).2 := by
      rw [Session.afterAll_append, Session.afterAll, hafter]
      exact Session.afterAll_of_unparsed (hconfig ▸ hrest)
    rw [hnext]
    rfl

end Runs

/-- two programs that read and write one byte each of a shared buffer, and between them one that cannot be parsed -/
theorem executions_are_isolated_two_readers :
    ∃ first s : Session Source Sink, s = first.afterAll 9 [.script (.text ",."), .script (.text "]")] ∧
      first.delivered 9 [.script (.text ",."), .script (.text "]")] = [.byte 104] ∧
      s.feed.source = .buffer [105] ∧ s.written 9 [.script (.text ",.")] = [105] ∧
      Session.BehavesAs 9 (.script (.text ",.")) (.start default s.feed (Sink.stream #[])) s := by
  let before : List Job := [.script (.text ",."), .script (.text "]")]
  let first : Session Source Sink := .start default (.shared (.buffer [104, 105])) (.buffer #[])
  have hbefore : ∀ job ∈ before, job.Parsed := by simp [before, Job.Parsed]
  obtain ⟨hsame, -⟩ := executions_are_isolated default (.shared (Source.buffer [104, 105])) (Sink.buffer #[])
    (Sink.stream #[]) (Sink.Took.buffer []).reliable (Sink.Took.stream []).reliable before (.script (.text ",."))
    hbefore trivial 9
  exact ⟨first, first.afterAll 9 before, rfl, by decide +kernel, by decide +kernel, by decide +kernel, hsame⟩

end Brainfuck
