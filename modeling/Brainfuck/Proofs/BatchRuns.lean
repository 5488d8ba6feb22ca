/-
Programs run on data in memory.

- `Batch.exists_error_of_run`: what stops a run on data is an error of the machine.
- `Batch.runFrom`: a run on any source, with its output in memory, and `Batch.Orderly` what it can come to. On data it
  is `Batch.run` (`Batch.runFrom_buffer`), and a byte stream takes the same bytes (`Batch.runFrom_of_toStream`).
-/
import Brainfuck.Batch
import Brainfuck.Proofs.Debugging

namespace Brainfuck

/-! ## Runs on data -/

namespace Batch

variable {u : Nat} {code : Script} {input : List UInt8} {config : Config}

theorem run_of_execute {r : Result × Session Source Sink}
    (h : (Debugger.session config input).execute u (.script code) = r) :
    run u code input config = (r.1, r.2.sink.bytes?.getD #[]) := by
  rw [← h]
  rfl

/-- buffers do not fail, so a program on data is stopped by an error of its own -/
theorem exists_error_of_run {stop : Stop} (h : (run u code input config).1 = .stopped stop) : ∃ e, stop = .error e := by
  cases hm : (Debugger.session config input).prepare (.script code) with
  | error e =>
    have hx : (Debugger.session config input).execute u (.script code) =
        (.unparsed e, Debugger.session config input) := by
      simp only [Session.execute, hm]
    rw [run_of_execute hx] at h
    cases h
  | ok m =>
    have hexecute := fun k e (hrun : m.run (m.patience u) = (e, m.after k)) =>
      run_of_execute (Debugger.execute_of_run hm hrun)
    rcases m.ends_or_dispatches (m.patience u) with ⟨k, hk, e, hends⟩ | ⟨hdispatches, hgo⟩
    · rw [hexecute _ _ (hends.run_eq hk)] at h
      cases hends with
      | finished => cases h
      | @stopped k s _ hgo hs =>
        obtain rfl := Result.stopped.inj h
        exact (Debugger.after_buffers hm k).2 hgo s hs
    · rw [hexecute _ _ (Machine.run_of_dispatches hdispatches hgo)] at h
      cases h

end Batch

/-! ## Runs on a source -/

namespace Batch

variable {code : Script} {source : Source} {config : Config} {u : Nat}

/-- run a program on a source, with its output in memory -/
def runFrom (unlimited : Nat) (code : Script) (source : Source) (config : Config) : Result × Array UInt8 :=
  let session : Session Source Sink := .start config (.shared source) (.buffer #[])
  let (result, session) := session.execute unlimited (.script code)
  (result, session.sink.bytes?.getD #[])

theorem runFrom_of_execute {r : Result × Session Source Sink}
    (h : (Session.start config (.shared source) (Sink.buffer #[])).execute u (.script code) = r) :
    runFrom u code source config = (r.1, r.2.sink.bytes?.getD #[]) := by
  rw [← h]
  rfl

/-- what a run can come to, with the bytes that it has written -/
inductive Orderly (config : Config) : Result × Array UInt8 → Prop where
  | done {i : Info} {bytes : Array UInt8} : i.timed = config.benchExecution → Orderly config (.done i, bytes)
  | unparsed {e : ParseError} : Orderly config (.unparsed e, #[])
  | stopped {stop : Stop} {bytes : Array UInt8} : Orderly config (.stopped stop, bytes)
  | unfinished {bytes : Array UInt8} : Orderly config (.unfinished, bytes)

theorem orderly_runFrom (u : Nat) (code : Script) (source : Source) (config : Config) :
    Orderly config (runFrom u code source config) := by
  set s : Session Source Sink := .start config (.shared source) (.buffer #[])
  cases hm : s.prepare (.script code) with
  | error e =>
    have hx : s.execute u (.script code) = (.unparsed e, s) := by simp only [Session.execute, hm]
    rw [runFrom_of_execute hx]
    exact .unparsed
  | ok m =>
    obtain ⟨p, hp, rfl⟩ := Session.exists_place_of_prepare (Job.parsed_script code) hm
    obtain ⟨e, j, w, hx, -⟩ := Machine.exists_place_of_execute (i := 0) hp
      (World.fits_initial s.config s.feed.source s.sink)
      ((Machine.place p s.config 0 (.initial s.config s.feed.source s.sink)).patience u)
    rw [runFrom_of_execute (Session.execute_of_prepare hm hx)]
    cases e with
    | finished => exact .done rfl
    | stopped => exact .stopped
    | unfinished => exact .unfinished

/-- input that is shared and input that is replayed are the same to a single program -/
theorem runFrom_buffer (unlimited : Nat) (code : Script) (input : List UInt8) (config : Config) :
    runFrom unlimited code (.buffer input) config = run unlimited code input config := by
  let s : Session Source Sink := .start config (.shared (.buffer input)) (.buffer #[])
  have hconfig : (Debugger.session config input).config = s.config := rfl
  have hsource : s.feed.source = (Debugger.session config input).feed.source := rfl
  have hsink : s.sink = (Debugger.session config input).sink := rfl
  have halike := Session.execute_alike sourcesAlike_eq sinksAlike_eq hconfig hsource hsink (Job.parsed_script code)
    unlimited
  obtain ⟨r, hr⟩ : ∃ r, s.execute unlimited (.script code) = r := ⟨_, rfl⟩
  obtain ⟨r', hr'⟩ : ∃ r', (Debugger.session config input).execute unlimited (.script code) = r' := ⟨_, rfl⟩
  rw [hr, hr'] at halike
  rw [runFrom_of_execute hr, run_of_execute hr']
  cases halike with
  | unparsed => rfl
  | ran _ hmachine => simp only [Session.after, hmachine.sink]

/-- more patience does not change a run that has ended -/
theorem runFrom_of_le {u v : Nat} (h : (runFrom u code source config).1 ≠ .unfinished) (hu : u ≤ v) :
    runFrom v code source config = runFrom u code source config := by
  have hx : (Session.start config (.shared source) (Sink.buffer #[])).execute v (.script code) = _ :=
    Session.execute_of_le h hu
  rw [runFrom_of_execute hx, runFrom_of_execute rfl]

end Batch

/-- a byte stream takes what a buffer takes -/
theorem sinksAlike_streamBuffer :
    SinksAlike fun t t' : Sink => ∃ data, t = .stream data ∧ t' = .buffer data := by
  apply SinksAlike.of_success
  · rintro _ _ b ⟨data, rfl, rfl⟩
    exact ⟨_, _, by simp only [ByteSink.write, Sink.put, Sink.push_byte], Sink.write_buffer data b, _, rfl, rfl⟩
  · rintro _ _ ⟨data, rfl, rfl⟩
    exact ⟨_, _, rfl, rfl, _, rfl, rfl⟩

/-- a program that writes to a byte stream comes to what it comes to on a buffer, and writes the same -/
theorem Batch.runFrom_of_toStream {code : Script} {source : Source} {config : Config} {u : Nat}
    {r : Result × Session Source Sink}
    (h : (Session.start config (.shared source) (Sink.stream #[])).execute u (.script code) = r) :
    ∃ data, r.2.sink = .stream data ∧ runFrom u code source config = (r.1, data) := by
  let s : Session Source Sink := .start config (.shared source) (.stream #[])
  let s' : Session Source Sink := .start config (.shared source) (.buffer #[])
  have hconfig : s'.config = s.config := rfl
  have hsource : s.feed.source = s'.feed.source := rfl
  have hsink : ∃ data, s.sink = .stream data ∧ s'.sink = .buffer data := ⟨#[], rfl, rfl⟩
  have halike := Session.execute_alike sourcesAlike_eq sinksAlike_streamBuffer hconfig hsource hsink
    (Job.parsed_script code) u
  have hs : s.execute u (.script code) = r := h
  obtain ⟨r', hr'⟩ : ∃ r', s'.execute u (.script code) = r' := ⟨_, rfl⟩
  rw [hs, hr'] at halike
  rw [runFrom_of_execute hr']
  cases halike with
  | unparsed => exact ⟨#[], rfl, rfl⟩
  | ran _ hmachine =>
    obtain ⟨data, hstream, hbuffer⟩ := hmachine.sink
    refine ⟨data, hstream, ?_⟩
    simp only [Session.after, hbuffer, Sink.bytes?, Option.getD_some]

end Brainfuck
