/-
The calls that a machine makes of its sink.

- `TracedSink`: a sink with a record of its calls and of what came of them. Keeping the record changes no answer
  (`sinksAlike_traced`), so a machine runs the same on a traced sink (`Machine.after_traced`).
- `NeverFailsToFlush`: no flush of the sink fails. Its writes may.
- `CallPattern flush calls n`: one flush right behind every byte that was accepted, or no flush at all, and `n` bytes
  accepted. On a sink that never fails to flush every command keeps the pattern (`Effect.traces`).
- `Machine.FlushesAsConfigured`: what follows for all states of a run, and for the last flush of an execution.
-/
import Brainfuck.Proofs.Streams

namespace Brainfuck

variable {σ τ : Type}

/-! ## Calls -/

/-- a call of a sink, and what came of it -/
inductive SinkCall where
  | write (b : UInt8) (fault : Option Fault)
  | flush (fault : Option Fault)
deriving DecidableEq, Repr

def SinkCall.isFlush : SinkCall → Bool
  | write _ _ => false
  | flush _ => true

/-- a sink with a record of its calls, in order -/
structure TracedSink (τ : Type) where
  sink : τ
  calls : List SinkCall

instance [ByteSink τ] : ByteSink (TracedSink τ) where
  write b t :=
    let (fault, rest) := ByteSink.write b t.sink
    (fault, ⟨rest, t.calls ++ [.write b fault]⟩)
  flush t :=
    let (fault, rest) := ByteSink.flush t.sink
    (fault, ⟨rest, t.calls ++ [.flush fault]⟩)

namespace TracedSink

variable [ByteSink τ] {t t' : TracedSink τ} {rest : τ} {b : UInt8} {fault : Option Fault}

theorem write_eq (h : ByteSink.write b t.sink = (fault, rest)) :
    ByteSink.write b t = (fault, ⟨rest, t.calls ++ [.write b fault]⟩) := by
  simp only [ByteSink.write, h]

theorem flush_eq (h : ByteSink.flush t.sink = (fault, rest)) :
    ByteSink.flush t = (fault, ⟨rest, t.calls ++ [.flush fault]⟩) := by
  simp only [ByteSink.flush, h]

theorem of_write (h : ByteSink.write b t = (fault, t')) :
    ByteSink.write b t.sink = (fault, t'.sink) ∧ t'.calls = t.calls ++ [.write b fault] := by
  cases h
  exact ⟨rfl, rfl⟩

theorem of_flush (h : ByteSink.flush t = (fault, t')) :
    ByteSink.flush t.sink = (fault, t'.sink) ∧ t'.calls = t.calls ++ [.flush fault] := by
  cases h
  exact ⟨rfl, rfl⟩

end TracedSink

theorem sinksAlike_traced [ByteSink τ] : SinksAlike fun (t : τ) (l : TracedSink τ) => l.sink = t where
  write := by
    rintro _ l b fault rest rfl h
    exact ⟨_, TracedSink.write_eq h, rfl⟩
  flush := by
    rintro _ l fault rest rfl h
    exact ⟨_, TracedSink.flush_eq h, rfl⟩

/-- no flush of the sink fails, whatever it was asked to do before -/
def NeverFailsToFlush [ByteSink τ] (t : τ) : Prop :=
  ∃ P : τ → Prop, P t ∧ ∀ t, P t →
    (∀ b, P (ByteSink.write b t).2) ∧ (ByteSink.flush t).1 = none ∧ P (ByteSink.flush t).2

namespace NeverFailsToFlush

variable [ByteSink τ] {t rest : τ} {fault : Option Fault}

theorem write (h : NeverFailsToFlush t) {b : UInt8} (hwrite : ByteSink.write b t = (fault, rest)) :
    NeverFailsToFlush rest := by
  obtain ⟨P, ht, hP⟩ := h
  have hrest := (hP t ht).1 b
  rw [hwrite] at hrest
  exact ⟨P, hrest, hP⟩

theorem flush (h : NeverFailsToFlush t) (hflush : ByteSink.flush t = (fault, rest)) :
    fault = none ∧ NeverFailsToFlush rest := by
  obtain ⟨P, ht, hP⟩ := h
  obtain ⟨-, hnone, hrest⟩ := hP t ht
  rw [hflush] at hnone hrest
  exact ⟨hnone, P, hrest, hP⟩

end NeverFailsToFlush

/-! ## The pattern of the calls -/

/-- what follows a byte that was accepted -/
def SinkCall.behindByte (flush : Bool) : List SinkCall := if flush then [.flush none] else []

/-- the calls of a machine that flushes after every byte, or never, and the number of bytes that were accepted -/
inductive CallPattern (flush : Bool) : List SinkCall → Nat → Prop where
  | nothing : CallPattern flush [] 0
  | accepted {calls : List SinkCall} {n : Nat} {b : UInt8} : CallPattern flush calls n →
      CallPattern flush (calls ++ .write b none :: SinkCall.behindByte flush) (n + 1)
  | refused {calls : List SinkCall} {n : Nat} {b : UInt8} {f : Fault} : CallPattern flush calls n →
      CallPattern flush (calls ++ [.write b (some f)]) n

/-- there are as many flushes as bytes, or none -/
theorem CallPattern.countP_isFlush {flush : Bool} {calls : List SinkCall} {n : Nat} (h : CallPattern flush calls n) :
    calls.countP SinkCall.isFlush = if flush then n else 0 := by
  induction h with
  | nothing => simp
  | accepted _ ih => cases flush <;> simp_all [SinkCall.behindByte, SinkCall.isFlush]
  | refused _ ih => simp [ih, SinkCall.isFlush]

section Pattern

variable [ByteSource σ] [ByteSink τ] {config : Config} {i : Nat} {c : Command} {stop : Option Stop}

/-- the record so far is as configured, and no flush will fail -/
structure World.Traces (config : Config) (w : World σ (TracedSink τ)) : Prop where
  pattern : CallPattern config.flushOutput w.sink.calls w.outputBytes
  flushes : NeverFailsToFlush w.sink.sink

theorem Effect.traces {w w' : World σ (TracedSink τ)} (h : Effect config i c w stop w') (hw : w.Traces config) :
    w'.Traces config := by
  obtain ⟨hpattern, hflushes⟩ := hw
  cases h with
  | output hwrite hno =>
    obtain ⟨hsink, hcalls⟩ := TracedSink.of_write hwrite
    refine ⟨?_, hflushes.write hsink⟩
    have hnext := hpattern.accepted (b := w.cell)
    rw [hno, SinkCall.behindByte, if_neg Bool.false_ne_true] at hnext
    simpa only [hno, hcalls] using hnext
  | outputFlush hwrite hyes hflush =>
    obtain ⟨hsink, hcalls⟩ := TracedSink.of_write hwrite
    obtain ⟨hsink', hcalls'⟩ := TracedSink.of_flush hflush
    refine ⟨?_, ((hflushes.write hsink).flush hsink').2⟩
    have hnext := hpattern.accepted (b := w.cell)
    rw [hyes, SinkCall.behindByte, if_pos rfl] at hnext
    simpa only [hyes, hcalls', hcalls, List.append_assoc, List.singleton_append] using hnext
  | writeFault hwrite =>
    obtain ⟨hsink, hcalls⟩ := TracedSink.of_write hwrite
    refine ⟨?_, hflushes.write hsink⟩
    simp only [hcalls]
    exact hpattern.refused
  | flushFault hwrite _ hflush =>
    obtain ⟨hsink, -⟩ := TracedSink.of_write hwrite
    obtain ⟨hsink', -⟩ := TracedSink.of_flush hflush
    cases ((hflushes.write hsink).flush hsink').1
  | _ => exact ⟨hpattern, hflushes⟩

end Pattern

/-! ## Machines -/

namespace Machine

variable [ByteSource σ] [ByteSink τ] {p : Program} {config : Config} {i : Nat} {w : World σ τ}

/-- the machine on a sink that records its calls from here on -/
def traced (m : Machine σ τ) : Machine σ (TracedSink τ) := m.onStreams m.source ⟨m.sink, []⟩

/-- the calls made in so many steps -/
def calls (m : Machine σ τ) (k : Nat) : List SinkCall := (m.traced.after k).sink.calls

/-- the calls made in an execution -/
def executionCalls (m : Machine σ τ) (u : Nat) : List SinkCall := (m.traced.execute u).2.sink.calls

/-- the flushes of a machine are as configured: in every state one has been made behind every byte that was accepted, so
as many as bytes are counted, or none has been made; and an execution makes another one exactly if it flushes at the end
only, the run was finished and a byte was written. The record of the calls changes nothing. -/
structure FlushesAsConfigured (m : Machine σ τ) : Prop where
  calls : ∀ k, CallPattern m.config.flushOutput (m.calls k) (m.after k).outputBytes
  count : ∀ k, (m.calls k).countP SinkCall.isFlush = if m.config.flushOutput then (m.after k).outputBytes else 0
  execution : ∀ u, ∃ k e, m.run u = (e, m.after k) ∧ m.executionCalls u = m.calls k ++
    if m.config.flushOutput = false ∧ e = .finished ∧ (m.after k).outputBytes ≠ 0 then [.flush none] else []
  untouched : ∀ k, (m.after k).Alike Eq (fun t l => l.sink = t) (m.traced.after k)

theorem after_traced (hp : p.WellFormed) (hw : w.Fits config) (k : Nat) :
    ((place p config i w).after k).Alike Eq (fun t l => l.sink = t) ((place p config i w).traced.after k) ∧
      ((place p config i w).traced.after k).step.1 = ((place p config i w).after k).step.1 :=
  after_alike (v := w.onStreams w.source ⟨w.sink, []⟩) hp sourcesAlike_eq sinksAlike_traced hw (.onStreams rfl rfl) k

/-- the empty record is as configured, and every step keeps that -/
theorem exists_after_traced (hp : p.WellFormed) (hw : w.Fits config) (hzero : w.outputBytes = 0)
    (hflushes : NeverFailsToFlush w.sink) (k : Nat) :
    ∃ j v, (place p config i w).traced.after k = place p config j v ∧ v.Traces config ∧
      v.outputBytes = ((place p config i w).after k).outputBytes := by
  have hnew : (w.onStreams w.source (⟨w.sink, []⟩ : TracedSink τ)).Traces config := by
    refine ⟨?_, hflushes⟩
    have hnothing : CallPattern config.flushOutput [] 0 := .nothing
    rwa [← hzero] at hnothing
  obtain ⟨j, v, hk, -, htraces⟩ := exists_after (i := i) (P := fun _ v => v.Traces config) hp
    (hw.onStreams w.source (⟨w.sink, []⟩ : TracedSink τ)) hnew
    (fun _ _ _ _ _ hmove hv => hmove.keeps (fun _ h => ⟨h.1, h.2⟩) (fun _ _ _ _ _ he h => he.traces h) hv) k
  have htraced : (place p config i w).traced.after k = place p config j v := hk
  have hbytes := congrArg Machine.outputBytes (after_traced (i := i) hp hw k).1.bare_eq
  rw [htraced] at hbytes
  exact ⟨j, v, htraced, htraces, hbytes⟩

theorem callPattern_after (hp : p.WellFormed) (hw : w.Fits config) (hzero : w.outputBytes = 0)
    (hflushes : NeverFailsToFlush w.sink) (k : Nat) :
    CallPattern config.flushOutput ((place p config i w).calls k) ((place p config i w).after k).outputBytes := by
  obtain ⟨j, v, hk, htraces, hbytes⟩ := exists_after_traced (i := i) hp hw hzero hflushes k
  rw [calls, hk, ← hbytes]
  exact htraces.pattern

/-- the last flush of a run that has come to an end -/
theorem executionCalls_of_run {m : Machine σ τ} {u : Nat} {e : Ending} {v : World σ (TracedSink τ)}
    (hrun : m.traced.run u = (e, place p config i v)) (hflushes : NeverFailsToFlush v.sink.sink) :
    m.executionCalls u = v.sink.calls ++
      if config.flushOutput = false ∧ e = .finished ∧ v.outputBytes ≠ 0 then [.flush none] else [] := by
  cases e with
  | finished =>
    obtain ⟨stop, v', hcomplete⟩ := exists_completes config i v
    rw [executionCalls, execute_of_completes hrun hcomplete]
    cases hcomplete with
    | nothing hno =>
      have hskip : ¬ (config.flushOutput = false ∧ Ending.finished = .finished ∧ v.outputBytes ≠ 0) := by
        rintro ⟨hheld, -, h0⟩
        rcases hno with hyes | hzero
        · cases hyes.symm.trans hheld
        · exact h0 hzero
      rw [if_neg hskip, List.append_nil]
      rfl
    | flush hheld h0 hflush =>
      obtain ⟨hsink, hcalls⟩ := TracedSink.of_flush hflush
      rw [if_pos ⟨hheld, rfl, h0⟩]
      exact hcalls
    | fault _ _ hflush =>
      obtain ⟨hsink, -⟩ := TracedSink.of_flush hflush
      cases (hflushes.flush hsink).1
  | stopped s => simp [executionCalls, execute, hrun, place]
  | unfinished => simp [executionCalls, execute, hrun, place]

theorem flushesAsConfigured (hp : p.WellFormed) (hw : w.Fits config) (hzero : w.outputBytes = 0)
    (hflushes : NeverFailsToFlush w.sink) : (place p config i w).FlushesAsConfigured where
  calls := callPattern_after hp hw hzero hflushes
  count := fun k => (callPattern_after hp hw hzero hflushes k).countP_isFlush
  execution := by
    intro u
    have hsame := after_traced (i := i) hp hw
    obtain ⟨k, e, -, hrun, htraced⟩ :=
      run_congr (fun n _ => (hsame n).1.finished_eq) (fun n _ => (hsame n).2) u
    obtain ⟨j, v, hk, htraces, hbytes⟩ := exists_after_traced (i := i) hp hw hzero hflushes k
    rw [hk] at htraced
    refine ⟨k, e, hrun, ?_⟩
    rw [executionCalls_of_run htraced htraces.flushes, calls, hk, ← hbytes]
    rfl
  untouched := fun k => (after_traced hp hw k).1

end Machine

end Brainfuck
