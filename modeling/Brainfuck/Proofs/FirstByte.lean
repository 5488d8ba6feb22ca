/-
The first byte of a program that ends in time.

- `Batch.Allows env stepLimit L`: how many commands a program may dispatch, by the caller, or else by the environment,
  or else by default. An environment that gives a configuration allows some number (`Batch.exists_allows`).
- `Batch.EndsWithin`: what a run under a limit of `L` comes to, said of the machine without a limit: the program cannot
  be parsed, or it ends after no more than `L` commands, or it is stopped by an error of the machine and does not end
  so early. Every run under a limit is one of these (`Batch.endsWithin_run`), whether its time is taken or not.
- `first_byte_in_time`: so there is always an answer, and it is the first byte written by a program that ends within
  the limit.
-/
import Brainfuck.Proofs.BatchRuns
import Brainfuck.Proofs.Flushing
import Brainfuck.Proofs.Provenance
import Brainfuck.Proofs.Truncation

namespace Brainfuck

namespace Config

/-- the configuration without a step limit -/
def unlimited (c : Config) : Config := { c with maxSteps := none }

/-- a configuration can be given any step limit, and leave the time alone -/
theorem replace_maxSteps_untimed (c : Config) (n : Nat) :
    c.replace [(.maxSteps, .int n), (.benchExecution, .bool false)] =
      .ok ((c.withLimit n).withOutput c.flushOutput false) := by
  have hdraft : c.draft.setAll [(.maxSteps, .int n), (.benchExecution, .bool false)] =
      ((c.withLimit n).withOutput c.flushOutput false).draft := by
    refine congrArg Draft.mk (funext fun s => ?_)
    cases s <;> rfl
  rw [replace, hdraft, build_draft]

end Config

/-- nobody sees flushes of a buffer -/
theorem flushUnseen_buffer : FlushUnseen fun t t' : Sink => t = t' ∧ ∃ data, t = .buffer data where
  write := sinksAlike_buffer.write
  left := by
    rintro _ _ ⟨rfl, data, rfl⟩
    exact ⟨_, rfl, rfl, data, rfl⟩
  right := by
    rintro _ _ ⟨rfl, data, rfl⟩
    exact ⟨_, rfl, rfl, data, rfl⟩

namespace Batch

/-! ## How many commands are allowed -/

/-- how many commands a program may dispatch, if the caller says so or not -/
inductive Allows (env : Environment) : Option Int → Nat → Prop where
  | caller (n : Nat) : Allows env (some n) n
  /-- the variable is set and not empty -/
  | environment {raw : String} {n : Nat} : Variable.stepLimit.raw? env = some raw → Numeral.read raw.toList = .ok n →
      Allows env none n
  | fallback : Variable.stepLimit.raw? env = none → Allows env none 5000

variable {env : Environment} {c : Config}

/-- the step limit of an environment is what its variable says -/
theorem maxSteps_of_environment (h : env.config default = .ok c) :
    Variable.stepLimit.raw? env = none ∧ c.maxSteps = none ∨
      ∃ (raw : String) (n : Nat), Variable.stepLimit.raw? env = some raw ∧ Numeral.read raw.toList = .ok (n : Int) ∧
        c.maxSteps = some n := by
  have hvalue : (env.valueOf? .stepLimit).getD .null = (c.maxSteps.map Int.ofNat).elim .null .int :=
    (Draft.build_eq_ok_iff.1 (Config.build_of_config h)).maxSteps
  cases hraw : Variable.stepLimit.raw? env with
  | none =>
    simp only [Environment.valueOf?, hraw, Option.bind_eq_bind, Option.bind_none, Option.getD_none] at hvalue
    cases hmax : c.maxSteps with
    | none => exact .inl ⟨rfl, rfl⟩
    | some n =>
      rw [hmax] at hvalue
      cases hvalue
  | some raw =>
    obtain ⟨value, hread⟩ := Environment.converts_of_config h _ raw hraw
    simp only [Environment.valueOf?, hraw, Option.bind_eq_bind, Option.bind_some, hread, Except.toOption,
      Option.getD_some] at hvalue
    simp only [Variable.read] at hread
    cases hnumeral : Numeral.read raw.toList with
    | error e =>
      rw [hnumeral] at hread
      cases hread
    | ok z =>
      rw [hnumeral] at hread
      cases hread
      cases hmax : c.maxSteps with
      | none =>
        rw [hmax] at hvalue
        cases hvalue
      | some n =>
        rw [hmax] at hvalue
        cases hvalue
        exact .inr ⟨raw, n, rfl, hnumeral, rfl⟩

theorem exists_allows (h : env.config default = .ok c) {stepLimit : Option Int}
    (hlimit : ∀ n, stepLimit = some n → 0 ≤ n) :
    ∃ L : Nat, Allows env stepLimit L ∧ stepLimit.getD (c.maxSteps.getD defaultStepLimit) = (L : Int) := by
  cases stepLimit with
  | some n =>
    obtain ⟨L, rfl⟩ := Int.eq_ofNat_of_zero_le (hlimit n rfl)
    exact ⟨L, .caller L, rfl⟩
  | none =>
    rcases maxSteps_of_environment h with ⟨hraw, hmax⟩ | ⟨raw, L, hraw, hread, hmax⟩
    · exact ⟨5000, .fallback hraw, by rw [hmax]; rfl⟩
    · exact ⟨L, .environment hraw hread, by rw [hmax]; rfl⟩

/-! ## A run under a limit -/

/-- what a run under a limit comes to, with the bytes that it has written, said of the machine without a limit -/
inductive EndsWithin (code : Script) (input : List UInt8) (config : Config) (L : Nat) :
    Result × Array UInt8 → Prop where
  | unparsed {e : ParseError} : (Debugger.session config input).prepare (.script code) = .error e →
      EndsWithin code input config L (.unparsed e, #[])
  | done {m : Machine Source Sink} {k : Nat} {i : Info} {bytes : Array UInt8} :
      (Debugger.session config input).prepare (.script code) = .ok m → m.Ends k .finished → k ≤ L →
      (m.after k).sink = .buffer bytes → EndsWithin code input config L (.done i, bytes)
  | failed {e : ExecutionError} {bytes : Array UInt8} :
      (∀ m k, (Debugger.session config input).prepare (.script code) = .ok m → m.Ends k .finished → L < k) →
      EndsWithin code input config L (.stopped (.error e), bytes)

variable {code : Script} {input : List UInt8} {L u : Nat} {m : Machine Source Sink}

/-- a run that ends within the limit, and is not stopped there, has written what the machine has written -/
theorem endsWithin_of_ends {k : Nat} {e : Ending} (hfree : c.maxSteps = none)
    (hm : (Debugger.session c input).prepare (.script code) = .ok m) (h : m.Ends k e) (hk : k ≤ L) :
    EndsWithin code input c L (run u code input (c.withLimit L)) := by
  obtain ⟨result, m₁, m₂, -, -, hagree, hfreely, hlimited⟩ :=
    Session.execute_within (s := Debugger.session c input) hfree (Job.parsed_script code) hm h hk (Nat.le_refl k) u
  have hends := Debugger.execute_of_run hm (Session.run_of_ends (Job.parsed_script code) hm h (Nat.le_refl k))
  obtain ⟨hresult, hafter⟩ := Prod.mk.inj (hfreely.symm.trans hends)
  have hsink : m₂.sink = (m.after k).sink := hagree.sink.symm.trans (congrArg Session.sink hafter)
  obtain ⟨bytes, hbytes⟩ := (Debugger.after_buffers hm k).1
  have hrun : run u code input (c.withLimit L) = (result, _) := run_of_execute hlimited
  rw [hrun]
  have hwritten : ((Debugger.session c input).withLimit L |>.after m₂).sink.bytes?.getD #[] = bytes := by
    simp only [Session.after, hsink, hbytes, Sink.bytes?, Option.getD_some]
  rw [hwritten, hresult]
  cases h with
  | finished hdispatches hend => exact .done hm (.finished hdispatches hend) hk hbytes
  | @stopped k s hdispatches hgo hs =>
    obtain ⟨e, rfl⟩ := (Debugger.after_buffers hm k).2 hgo s hs
    refine .failed fun m' k' hm' hend => ?_
    obtain rfl := Except.ok.inj (hm.symm.trans hm')
    -- a run does not end in two ways
    by_contra hle
    have hstopped := (Machine.Ends.stopped hdispatches hgo hs).run_eq hk
    have hfinished := hend.run_eq (Nat.not_lt.1 hle)
    rw [hstopped] at hfinished
    cases hfinished

theorem endsWithin_withLimit (hfree : c.maxSteps = none) (code : Script) (input : List UInt8) (L u : Nat) :
    EndsWithin code input c L (run u code input (c.withLimit L)) := by
  cases hm : (Debugger.session c input).prepare (.script code) with
  | error e =>
    have hm' : (Debugger.session (c.withLimit L) input).prepare (.script code) = .error e :=
      Session.prepare_withConfig_eq_error (d := c.withLimit L) rfl hm
    have hx : (Debugger.session (c.withLimit L) input).execute u (.script code) =
        (.unparsed e, Debugger.session (c.withLimit L) input) := by
      simp only [Session.execute, hm']
    have hrun : run u code input (c.withLimit L) = (.unparsed e, _) := run_of_execute hx
    rw [hrun]
    exact .unparsed hm
  | ok m =>
    rcases m.ends_or_dispatches L with ⟨k, hk, e, h⟩ | ⟨h, hgo⟩
    · exact endsWithin_of_ends hfree hm h hk
    · obtain ⟨-, m', -, hx⟩ :=
        Session.execute_beyond (s := Debugger.session c input) hfree (Job.parsed_script code) hm h hgo u
      have hrun : run u code input (c.withLimit L) = (.stopped (.error _), _) := run_of_execute hx
      rw [hrun]
      refine .failed fun m' k' hm' hend => ?_
      obtain rfl := Except.ok.inj (hm.symm.trans hm')
      exact hend.lt_of_dispatches h hgo

/-- whether the time is taken, and when the buffer is flushed, changes nothing else -/
theorem run_withOutput (flush bench : Bool) (u : Nat) (code : Script) (input : List UInt8) (config : Config) :
    (run u code input (config.withOutput flush bench)).1.untimed = (run u code input config).1.untimed ∧
      (run u code input (config.withOutput flush bench)).2 = (run u code input config).2 := by
  have hsame := Session.execute_unseen (s := Debugger.session config input) flushUnseen_buffer flush bench
    (Job.parsed_script code) ⟨rfl, #[], rfl⟩ u
  have hrun : run u code input config =
      (((Debugger.session config input).execute u (.script code)).1, _) := run_of_execute rfl
  have hrun' : run u code input (config.withOutput flush bench) =
      ((((Debugger.session config input).withConfig (config.withOutput flush bench)).execute u (.script code)).1, _) :=
    run_of_execute rfl
  have hsink := (hsame.sink ⟨rfl, #[], rfl⟩).1
  rw [hrun, hrun']
  refine ⟨hsame.untimed, ?_⟩
  exact congrArg (fun t : Sink => t.bytes?.getD #[]) hsink.symm

theorem EndsWithin.congr {r r' : Result × Array UInt8} (h : EndsWithin code input c L r)
    (hresult : r'.1.untimed = r.1.untimed) (hbytes : r'.2 = r.2) : EndsWithin code input c L r' := by
  obtain ⟨result, bytes⟩ := r'
  obtain rfl : bytes = r.2 := hbytes
  cases h with
  | unparsed hm =>
    cases result with
    | unparsed e =>
      cases hresult
      exact .unparsed hm
    | _ => cases hresult
  | done hm hends hk hsink =>
    cases result with
    | done i => exact .done hm hends hk hsink
    | _ => cases hresult
  | failed hlate =>
    cases result with
    | stopped s =>
      cases hresult
      exact .failed hlate
    | _ => cases hresult

/-- every run under a limit ends, and says what the machine without the limit comes to -/
theorem endsWithin_run (c : Config) (flush bench : Bool) (code : Script) (input : List UInt8) (L u : Nat) :
    EndsWithin code input c.unlimited L (run u code input ((c.withLimit L).withOutput flush bench)) := by
  obtain ⟨hresult, hbytes⟩ := run_withOutput flush bench u code input (c.withLimit L)
  have hlimited : EndsWithin code input c.unlimited L (run u code input (c.unlimited.withLimit L)) :=
    endsWithin_withLimit rfl code input L u
  exact hlimited.congr hresult hbytes

/-! ## The answer -/

/-- the program ends after no more than `L` commands, and `b` is the first byte that it has written -/
def WritesFirst (code : Script) (input : List UInt8) (config : Config) (L : Nat) (b : UInt8) : Prop :=
  ∃ m k bytes, (Debugger.session config input).prepare (.script code) = .ok m ∧ m.Ends k .finished ∧ k ≤ L ∧
    (m.after k).sink = .buffer bytes ∧ bytes[0]? = some b

theorem toNat_byteOf (x : Int) : ((byteOf x).toNat : Int) = x % 256 := by
  have hnonneg : 0 ≤ x % 256 := Int.emod_nonneg x (by decide)
  have hlt : x % 256 < 256 := Int.emod_lt_of_pos x (by decide)
  have hsmall : (x % 256).toNat % 256 = (x % 256).toNat := Nat.mod_eq_of_lt (by omega)
  calc ((byteOf x).toNat : Int)
      = ((x % 256).toNat % 256 : Nat) := rfl
    _ = (x % 256).toNat := by rw [hsmall]
    _ = x % 256 := Int.toNat_of_nonneg hnonneg

theorem byteOf_add (x j : Int) : byteOf (x + 256 * j) = byteOf x := by
  rw [byteOf, Int.add_mul_emod_self_left, byteOf]

/-- a program ends in one way, so it writes first what it has written when a run sees it end -/
theorem writesFirst_iff {k : Nat} {bytes : Array UInt8}
    (hm : (Debugger.session c input).prepare (.script code) = .ok m) (hends : m.Ends k .finished) (hk : k ≤ L)
    (hsink : (m.after k).sink = .buffer bytes) (b : UInt8) :
    WritesFirst code input c L b ↔ bytes[0]? = some b := by
  constructor
  · rintro ⟨m', k', bytes', hm', hends', -, hsink', hb⟩
    obtain rfl := Except.ok.inj (hm.symm.trans hm')
    have hagain : (Ending.finished, m.after k) = (.finished, m.after k') :=
      (hends.run_eq (Nat.le_max_left k k')).symm.trans (hends'.run_eq (Nat.le_max_right k k'))
    have hbytes : Sink.buffer bytes = .buffer bytes' :=
      hsink.symm.trans ((congrArg (fun r => r.2.sink) hagain).trans hsink')
    cases hbytes
    exact hb
  · intro hb
    exact ⟨m, k, bytes, hm, hends, hk, hsink, hb⟩

/-- the answer is read off a run under the limit -/
theorem exists_answer (henv : env.config default = .ok c) {stepLimit : Option Int}
    (hlimit : stepLimit.getD (c.maxSteps.getD defaultStepLimit) = (L : Int)) (code : Script) (x : Int) :
    ∃ r, firstByte env stepLimit code x = .ok r ∧ ∀ b, r = some b ↔ WritesFirst code [byteOf x] c.unlimited L b := by
  have hrun := endsWithin_run c c.flushOutput false code [byteOf x] L L
  simp only [firstByte, henv, mapError_ok, ok_bind, hlimit, Config.replace_maxSteps_untimed, Int.toNat_natCast]
  generalize run L code [byteOf x] ((c.withLimit L).withOutput c.flushOutput false) = ran at hrun ⊢
  cases hrun with
  | unparsed hunparsed =>
    refine ⟨none, rfl, fun b => iff_of_false (by simp) ?_⟩
    rintro ⟨m, _, _, hm, -⟩
    rw [hunparsed] at hm
    cases hm
  | @done m k info bytes hm hends hk hsink =>
    exact ⟨bytes[0]?, rfl, fun b => (writesFirst_iff hm hends hk hsink b).symm⟩
  | failed hlate =>
    refine ⟨none, rfl, fun b => iff_of_false (by simp) ?_⟩
    rintro ⟨m, k, _, hm, hends, hk, -⟩
    exact absurd hk (Nat.not_le.2 (hlate m k hm hends))

end Batch

/-- **The first byte of a program that ends in time.** In an environment that gives a configuration, with a limit that
is not negative or with none, there is always an answer. It is the byte `b` exactly if the program can be parsed and,
without any limit, ends after no more commands than are allowed and has written `b` first. Only the remainder of the
input modulo 256 matters. -/
theorem first_byte_in_time {env : Environment} {c : Config} (henv : env.config default = .ok c)
    (stepLimit : Option Int) (hlimit : ∀ n, stepLimit = some n → 0 ≤ n) (code : Script) (x : Int) :
    ∃ L r, Batch.Allows env stepLimit L ∧ Batch.firstByte env stepLimit code x = .ok r ∧
      ((Batch.byteOf x).toNat : Int) = x % 256 ∧
      (∀ b, r = some b ↔ Batch.WritesFirst code [Batch.byteOf x] c.unlimited L b) ∧
      ∀ j, Batch.firstByte env stepLimit code (x + 256 * j) = .ok r := by
  obtain ⟨L, hallows, hL⟩ := Batch.exists_allows henv hlimit
  obtain ⟨r, hanswer, hfirst⟩ := Batch.exists_answer henv hL code x
  refine ⟨L, r, hallows, hanswer, Batch.toNat_byteOf x, hfirst, fun j => ?_⟩
  rw [← hanswer, Batch.firstByte, Batch.byteOf_add, Batch.firstByte]

/-- a variable allows three commands: that is enough to read a byte, add one to it and write it -/
theorem first_byte_in_time_three_commands :
    let env : Environment := [("BF_STEP_LIMIT", "3")]
    Batch.firstByte env none (.text ",+.") (-1) = .ok (some 0) ∧
      Batch.firstByte env none (.text ",+.") 511 = .ok (some 0) ∧
      Batch.WritesFirst (.text ",+.") [255] default 3 0 := by
  intro env
  have henv : env.config default = .ok { maxSteps := some 3 } := toOption_eq_some_iff.1 (by decide +kernel)
  obtain ⟨L, r, hallows, hanswer, -, hfirst, hagain⟩ := first_byte_in_time henv none (by simp) (.text ",+.") (-1)
  have hzero : Batch.firstByte env none (.text ",+.") (-1) = .ok (some 0) := toOption_eq_some_iff.1 (by decide +kernel)
  obtain rfl : some 0 = r := Except.ok.inj (hzero.symm.trans hanswer)
  obtain rfl : L = 3 := by
    have hset : Variable.stepLimit.raw? env = some "3" := by decide +kernel
    cases hallows with
    | environment hraw hread =>
      obtain rfl := Option.some.inj (hset.symm.trans hraw)
      have hthree : Numeral.read "3".toList = .ok 3 := toOption_eq_some_iff.1 (by decide +kernel)
      have hcast := Except.ok.inj (hread.symm.trans hthree)
      exact_mod_cast hcast
    | fallback hraw =>
      rw [hset] at hraw
      cases hraw
  exact ⟨hzero, hagain 2, (hfirst 0).1 rfl⟩

end Brainfuck
