/-
Streams that keep a log, and the bytes that a sink accepts.

- `LoggedSource`, `LoggedSink`: a source with the readings that it has given, and a sink with the bytes that it has
  accepted and the number of its flushes that failed. A write that fails stores nothing. Keeping the log changes no
  answer of a sink (`sinksAlike_logged`), so a machine runs the same on a logged sink (`Machine.after_logSink`).
- `Machine.accepted`, `Machine.failedFlushes`: what is in the log of the sink after a number of steps.
- `accepted_bytes_are_counted`: the machine has counted the accepted bytes, other than those whose flush failed. A byte
  whose flush failed is accepted and not counted (`failed_flush_is_not_counted`).
-/
import Brainfuck.Device
import Brainfuck.Proofs.Streams

namespace Brainfuck

variable {σ τ : Type}

/-! ## Logs -/

/-- a source with a log of what its reads gave, in order -/
structure LoggedSource (σ : Type) where
  source : σ
  given : List Reading

instance [ByteSource σ] : ByteSource (LoggedSource σ) where
  next s :=
    let (reading, rest) := ByteSource.next s.source
    (reading, ⟨rest, s.given ++ [reading]⟩)

/-- a sink with a log of the bytes that it has accepted, in order, and of how many flushes failed -/
structure LoggedSink (τ : Type) where
  sink : τ
  accepted : List UInt8
  failedFlushes : Nat

/-- the bytes accepted once a write of `b` has come to this -/
def LoggedSink.acceptedAfter (b : UInt8) (bytes : List UInt8) : Option Fault → List UInt8
  | none => bytes ++ [b]
  | some _ => bytes

/-- the failed flushes once another has come to this -/
def LoggedSink.failedAfter (n : Nat) : Option Fault → Nat
  | none => n
  | some _ => n + 1

instance [ByteSink τ] : ByteSink (LoggedSink τ) where
  write b t :=
    let (fault, rest) := ByteSink.write b t.sink
    (fault, ⟨rest, LoggedSink.acceptedAfter b t.accepted fault, t.failedFlushes⟩)
  flush t :=
    let (fault, rest) := ByteSink.flush t.sink
    (fault, ⟨rest, t.accepted, LoggedSink.failedAfter t.failedFlushes fault⟩)

/-- the sink with an empty log -/
def LoggedSink.new (t : τ) : LoggedSink τ := ⟨t, [], 0⟩

theorem LoggedSource.next_eq [ByteSource σ] (s : LoggedSource σ) {reading : Reading} {rest : σ}
    (h : ByteSource.next s.source = (reading, rest)) : ByteSource.next s = (reading, ⟨rest, s.given ++ [reading]⟩) := by
  simp only [ByteSource.next, h]

namespace LoggedSink

variable [ByteSink τ] {t t' : LoggedSink τ} {rest : τ} {b : UInt8} {fault : Option Fault}

theorem write_eq (h : ByteSink.write b t.sink = (fault, rest)) :
    ByteSink.write b t = (fault, ⟨rest, acceptedAfter b t.accepted fault, t.failedFlushes⟩) := by
  simp only [ByteSink.write, h]

theorem flush_eq (h : ByteSink.flush t.sink = (fault, rest)) :
    ByteSink.flush t = (fault, ⟨rest, t.accepted, failedAfter t.failedFlushes fault⟩) := by
  simp only [ByteSink.flush, h]

theorem of_write (h : ByteSink.write b t = (fault, t')) :
    ByteSink.write b t.sink = (fault, t'.sink) ∧ t'.accepted = acceptedAfter b t.accepted fault ∧
      t'.failedFlushes = t.failedFlushes := by
  cases h
  exact ⟨rfl, rfl, rfl⟩

theorem of_flush (h : ByteSink.flush t = (fault, t')) :
    ByteSink.flush t.sink = (fault, t'.sink) ∧ t'.accepted = t.accepted ∧
      t'.failedFlushes = failedAfter t.failedFlushes fault := by
  cases h
  exact ⟨rfl, rfl, rfl⟩

end LoggedSink

/-! ## Keeping a log changes no answer -/

theorem sinksAlike_logged [ByteSink τ] : SinksAlike fun (t : τ) (l : LoggedSink τ) => l.sink = t where
  write := by
    rintro _ l b fault rest rfl h
    exact ⟨_, LoggedSink.write_eq h, rfl⟩
  flush := by
    rintro _ l fault rest rfl h
    exact ⟨_, LoggedSink.flush_eq h, rfl⟩

/-! ## Accepted bytes -/

section Counting

variable [ByteSource σ] [ByteSink τ] {config : Config} {i : Nat} {c : Command} {stop : Option Stop}

/-- the bytes accepted are those counted and those whose flush failed; without flushes there are none of these -/
structure World.Counts (config : Config) (w : World σ (LoggedSink τ)) : Prop where
  accepted : w.sink.accepted.length = w.outputBytes + w.sink.failedFlushes
  unflushed : config.flushOutput = false → w.sink.failedFlushes = 0

theorem Effect.counts {w w' : World σ (LoggedSink τ)} (h : Effect config i c w stop w') (hw : w.Counts config) :
    w'.Counts config := by
  obtain ⟨haccepted, hunflushed⟩ := hw
  cases h with
  | output hwrite hno =>
    obtain ⟨-, hbytes, hfailed⟩ := LoggedSink.of_write hwrite
    refine ⟨?_, fun h => hfailed.trans (hunflushed h)⟩
    simp only [hbytes, hfailed, LoggedSink.acceptedAfter, List.length_append, List.length_singleton, haccepted]
    omega
  | outputFlush hwrite hyes hflush =>
    obtain ⟨-, hbytes, hfailed⟩ := LoggedSink.of_write hwrite
    obtain ⟨-, hbytes', hfailed'⟩ := LoggedSink.of_flush hflush
    refine ⟨?_, fun h => (hfailed'.trans hfailed).trans (hunflushed h)⟩
    simp only [hbytes', hfailed', hbytes, hfailed, LoggedSink.acceptedAfter, LoggedSink.failedAfter,
      List.length_append, List.length_singleton, haccepted]
    omega
  | writeFault hwrite =>
    obtain ⟨-, hbytes, hfailed⟩ := LoggedSink.of_write hwrite
    refine ⟨?_, fun h => hfailed.trans (hunflushed h)⟩
    simp only [hbytes, hfailed]
    exact haccepted
  | flushFault hwrite hyes hflush =>
    -- the byte is accepted, and the failed flush stands for it
    obtain ⟨-, hbytes, hfailed⟩ := LoggedSink.of_write hwrite
    obtain ⟨-, hbytes', hfailed'⟩ := LoggedSink.of_flush hflush
    refine ⟨?_, fun h => absurd (hyes.symm.trans h) (by decide)⟩
    simp only [hbytes', hfailed', hbytes, hfailed, LoggedSink.acceptedAfter, LoggedSink.failedAfter,
      List.length_append, List.length_singleton, haccepted, World.tick]
    omega
  | _ => exact ⟨haccepted, hunflushed⟩

namespace Machine

/-- the machine on a sink that keeps a log from here on -/
def logSink (m : Machine σ τ) : Machine σ (LoggedSink τ) := m.onStreams m.source (.new m.sink)

/-- the bytes that the sink accepts in so many steps -/
def accepted (m : Machine σ τ) (k : Nat) : List UInt8 := (m.logSink.after k).sink.accepted

/-- the flushes that fail in so many steps -/
def failedFlushes (m : Machine σ τ) (k : Nat) : Nat := (m.logSink.after k).sink.failedFlushes

/-- the log changes nothing else -/
theorem after_logSink {p : Program} (hp : p.WellFormed) {w : World σ τ} (hw : w.Fits config) (k : Nat) :
    Alike Eq (fun t l => l.sink = t) ((place p config i w).after k)
      ((place p config i w).logSink.after k) :=
  (after_alike (v := w.onStreams w.source (.new w.sink)) hp sourcesAlike_eq sinksAlike_logged hw
    (.onStreams rfl rfl) k).1

/-- the empty log counts right, and every command keeps that -/
theorem exists_after_logSink {p : Program} (hp : p.WellFormed) {w : World σ τ} (hw : w.Fits config)
    (hzero : w.outputBytes = 0) (k : Nat) :
    ∃ j v, (place p config i w).logSink.after k = place p config j v ∧ v.Counts config := by
  have hnew : (w.onStreams w.source (LoggedSink.new w.sink)).Counts config := ⟨hzero.symm, fun _ => rfl⟩
  obtain ⟨j, v, hk, -, hcounts⟩ := exists_after (i := i) (P := fun _ v => v.Counts config) hp
    (hw.onStreams w.source (LoggedSink.new w.sink)) hnew
    (fun _ _ _ _ _ hmove hv => hmove.keeps (fun _ h => ⟨h.1, h.2⟩) (fun _ _ _ _ _ he h => he.counts h) hv) k
  exact ⟨j, v, hk, hcounts⟩

end Machine

/-- **What the machine counts are accepted bytes.** After any number of steps of a prepared machine, failed ones
included, the sink has accepted as many bytes as the machine counted, and one for each flush that failed. Without a
flush after every byte, that is as many as the machine counted. Keeping the log leaves the machine, its source and its
sink as they are without it. -/
theorem accepted_bytes_are_counted (s : Session σ τ) (job : Job) (hjob : job.Parsed) (m : Machine σ τ)
    (hm : s.prepare job = .ok m) (k : Nat) :
    (m.accepted k).length = (m.after k).outputBytes + m.failedFlushes k ∧
      (s.config.flushOutput = false → m.failedFlushes k = 0) ∧
      (m.logSink.after k).bare = (m.after k).bare ∧ (m.logSink.after k).source = (m.after k).source ∧
      (m.logSink.after k).sink.sink = (m.after k).sink := by
  obtain ⟨p, hp, rfl⟩ := Session.exists_place_of_prepare hjob hm
  have hw := World.fits_initial s.config s.feed.source s.sink
  have hsame := Machine.after_logSink (i := 0) hp hw k
  obtain ⟨j, w, hlog, hcounts⟩ := Machine.exists_after_logSink (i := 0) hp hw rfl k
  have hbytes : w.outputBytes =
      ((Machine.place p s.config 0 (.initial s.config s.feed.source s.sink)).after k).outputBytes := by
    have hbare := congrArg Machine.outputBytes hsame.bare_eq
    rwa [hlog] at hbare
  refine ⟨?_, ?_, hsame.bare_eq, hsame.source.symm, hsame.sink⟩
  · rw [← hbytes, Machine.accepted, Machine.failedFlushes, hlog]
    exact hcounts.accepted
  · rw [Machine.failedFlushes, hlog]
    exact hcounts.unflushed

end Counting

/-- two bytes are accepted on a device whose second flush fails; the first is counted -/
theorem accepted_bytes_are_counted_second_flush_fails :
    ∃ (s : Session Source Sink) (m : Machine Source Sink), s.prepare (.script (.text "+..")) = .ok m ∧
      m.accepted 3 = [1, 1] ∧ (m.after 3).outputBytes = 1 ∧ m.failedFlushes 3 = 1 ∧
      (m.accepted 3).length = (m.after 3).outputBytes + m.failedFlushes 3 := by
  let s : Session Source Sink :=
    .start default (.replayed (.buffer [])) (.failing #[] 0 (some ⟨true, 1, .device, "disk full"⟩))
  obtain ⟨m, hm, hbytes, hcount, hfailed⟩ : ∃ m, s.prepare (.script (.text "+..")) = .ok m ∧
      m.accepted 3 = [1, 1] ∧ (m.after 3).outputBytes = 1 ∧ m.failedFlushes 3 = 1 :=
    ⟨_, rfl, by decide +kernel, by decide +kernel, by decide +kernel⟩
  exact ⟨s, m, hm, hbytes, hcount, hfailed, (accepted_bytes_are_counted s (.script (.text "+..")) trivial m hm 3).1⟩

/-- a byte that the sink stores and the machine never counts, because its flush fails -/
theorem failed_flush_is_not_counted :
    ∃ (s : Session Source Sink) (m : Machine Source Sink), s.prepare (.script (.text "+.")) = .ok m ∧
      (m.after 2).sink.bytes? = some #[1] ∧ m.accepted 2 = [1] ∧ (m.after 2).outputBytes = 0 := by
  let s : Session Source Sink :=
    .start default (.replayed (.buffer [])) (.failing #[] 0 (some ⟨true, 0, .device, "disk full"⟩))
  exact ⟨s, _, rfl, by decide +kernel, by decide +kernel, by decide +kernel⟩

end Brainfuck
