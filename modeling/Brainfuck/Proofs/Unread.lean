/-
Input that has not been read does not matter.

- `Machine.ReadsNext`, `Machine.reads m n`: the next step reads, and how many of the first `n` steps do.
- `AlikeUntil k R`: `R r` relates two sources after `r` reads; up to the read number `k` both give the same, and stay
  related. `SourcesAlike` is the case of one relation and no bound.
- `Machine.step_alike_until`, `Machine.after_alike_until`: a step, and any number of steps, on two such sources. The
  induction carries that both machines have read equally often, so it is the count of reads that says which relation
  holds.
- `SameUntil k R m m'`: what this comes to, for the states, the stops and the ends of two machines.
- `Source.HaveGiven d d' r`: the sources had the bytes `d` and `d'`, and have given the first `r` of them.
  `Consumes k d m` says of one machine that its first `k` reads take the bytes of `d` in order.
- `unread_input_is_irrelevant`: all of it for two inputs with the same beginning, of whatever kind of source.
-/
import Brainfuck.Proofs.Interchange

namespace Brainfuck

variable {σ σ' τ τ' : Type}

/-! ## Counting reads -/

namespace Machine

/-- the next step reads -/
def ReadsNext (m : Machine σ τ) : Prop := m.limitReached = none ∧ m.program.commands[m.ip]? = some .input

instance (m : Machine σ τ) : Decidable m.ReadsNext := inferInstanceAs (Decidable (_ ∧ _))

/-- how many reads the next step makes -/
def reading (m : Machine σ τ) : Nat := if m.ReadsNext then 1 else 0

/-- how many of the first `n` steps read -/
def reads [ByteSource σ] [ByteSink τ] (m : Machine σ τ) : Nat → Nat
  | 0 => 0
  | n + 1 => m.reads n + (m.after n).reading

theorem readsNext_place_iff {p : Program} {config : Config} {i : Nat} {w : World σ τ} :
    (place p config i w).ReadsNext ↔ w.Reads p config i :=
  and_congr_left fun _ => limitReached_eq_none_iff

theorem reading_of_readsNext {m : Machine σ τ} (h : m.ReadsNext) : m.reading = 1 := if_pos h

theorem reading_of_not {m : Machine σ τ} (h : ¬ m.ReadsNext) : m.reading = 0 := if_neg h

theorem Alike.reading_eq {R : σ → σ' → Prop} {Q : τ → τ' → Prop} {m : Machine σ τ} {m' : Machine σ' τ'}
    (h : Alike R Q m m') : m'.reading = m.reading := by
  cases h
  rfl

theorem reads_mono [ByteSource σ] [ByteSink τ] (m : Machine σ τ) : Monotone m.reads :=
  monotone_nat_of_le_succ fun _ => Nat.le_add_right _ _

end Machine

/-! ## Sources that are alike for some reads -/

/-- sources that are related after `r < k` reads are read alike, and are related after one more -/
def AlikeUntil [ByteSource σ] [ByteSource σ'] (k : Nat) (R : Nat → σ → σ' → Prop) : Prop :=
  ∀ r < k, ∀ s s', R r s s' → ReadAlike (R (r + 1)) s s'

/-- two machines on sources of which `R r` holds after `r` reads: they make the same reads, and while these are no more
than `k`, they are in the same states, stop alike and end alike -/
structure SameUntil [ByteSource σ] [ByteSource σ'] [ByteSink τ] [ByteSink τ'] (k : Nat) (R : Nat → σ → σ' → Prop)
    (Q : τ → τ' → Prop) (m : Machine σ τ) (m' : Machine σ' τ') : Prop where
  reads : ∀ n, m.reads n ≤ k → m'.reads n = m.reads n
  states : ∀ n, m.reads n ≤ k → (m.after n).Alike (R (m.reads n)) Q (m'.after n)
  stops : ∀ n, m.reads (n + 1) ≤ k → (m'.after n).step.1 = (m.after n).step.1
  ends : ∀ n e, m.reads n ≤ k → (m'.Ends n e ↔ m.Ends n e)

section Runs

variable [ByteSource σ] [ByteSource σ'] [ByteSink τ] [ByteSink τ'] {k : Nat} {R : Nat → σ → σ' → Prop}
  {Q : τ → τ' → Prop} {p : Program} {config : Config} {i : Nat} {w : World σ τ} {v : World σ' τ'}

namespace Machine

/-- one step of both machines, if they may make its reads -/
theorem step_alike_until (hp : p.WellFormed) (hR : AlikeUntil k R) (hQ : SinksAlike Q) {r : Nat} (hw : w.Fits config)
    (hv : World.Alike (R r) Q w v) (hroom : r + (place p config i w).reading ≤ k) :
    ∃ stop j w' v', (place p config i w).step = (stop, place p config j w') ∧
      (place p config i v).step = (stop, place p config j v') ∧ w'.Fits config ∧ v'.Fits config ∧
      World.Alike (R (r + (place p config i w).reading)) Q w' v' := by
  refine step_pair hp hw (hv.fits hw) fun stop j w' hmove => ?_
  obtain ⟨hs, ht⟩ := hv
  by_cases hreads : (place p config i w).ReadsNext
  · rw [reading_of_readsNext hreads] at hroom ⊢
    have hread := hR r hroom _ _ hs
    exact hmove.onStreams_of hQ (fun hno => absurd (readsNext_place_iff.1 hreads) hno) (fun _ => hread) ht
  · rw [reading_of_not hreads]
    exact hmove.onStreams_of hQ (fun _ => hs) (fun hyes => absurd (readsNext_place_iff.2 hyes) hreads) ht

/-- any number of steps of both machines, as long as they have made no more than `k` reads -/
theorem after_alike_until (hp : p.WellFormed) (hR : AlikeUntil k R) (hQ : SinksAlike Q) (hw : w.Fits config)
    (hv : World.Alike (R 0) Q w v) (n : Nat) (hn : (place p config i w).reads n ≤ k) :
    ∃ j w' v', (place p config i w).after n = place p config j w' ∧
      (place p config i v).after n = place p config j v' ∧ w'.Fits config ∧
      World.Alike (R ((place p config i w).reads n)) Q w' v' ∧
      (place p config i v).reads n = (place p config i w).reads n := by
  induction n with
  | zero => exact ⟨i, w, v, rfl, rfl, hw, hv, rfl⟩
  | succ n ih =>
    obtain ⟨j, w₁, v₁, h, h', hw₁, hv₁, hreads⟩ := ih (Nat.le_trans (Nat.le_add_right _ _) hn)
    rw [reads, h] at hn
    obtain ⟨stop, j', w₂, v₂, hs, hs', hw₂, -, hv₂⟩ := step_alike_until hp hR hQ hw₁ hv₁ hn
    have hreading : (place p config j v₁).reading = (place p config j w₁).reading := (alike_place hv₁).reading_eq
    refine ⟨j', w₂, v₂, ?_, ?_, hw₂, ?_, ?_⟩
    · rw [after, h, hs]
    · rw [after, h', hs']
    · rw [reads, h]
      exact hv₂
    · rw [reads, reads, h, h', hreads, hreading]

theorem sameUntil_place (hp : p.WellFormed) (hR : AlikeUntil k R) (hQ : SinksAlike Q) (hw : w.Fits config)
    (hv : World.Alike (R 0) Q w v) : SameUntil k R Q (place p config i w) (place p config i v) := by
  have hstates : ∀ n, (place p config i w).reads n ≤ k →
      ((place p config i w).after n).Alike (R ((place p config i w).reads n)) Q ((place p config i v).after n) := by
    intro n hn
    obtain ⟨j, w', v', h, h', -, hv', -⟩ := after_alike_until hp hR hQ hw hv n hn
    rw [h, h']
    exact alike_place hv'
  have hstops : ∀ n, (place p config i w).reads (n + 1) ≤ k →
      ((place p config i v).after n).step.1 = ((place p config i w).after n).step.1 := by
    intro n hn
    obtain ⟨j, w', v', h, h', hw', hv', -⟩ :=
      after_alike_until hp hR hQ hw hv n (Nat.le_trans (Nat.le_add_right _ _) hn)
    rw [reads, h] at hn
    obtain ⟨stop, _, _, _, hs, hs', -⟩ := step_alike_until hp hR hQ hw' hv' hn
    rw [h, h', hs, hs']
  refine ⟨?_, hstates, hstops, ?_⟩
  · intro n hn
    obtain ⟨_, _, _, -, -, -, -, hreads⟩ := after_alike_until hp hR hQ hw hv n hn
    exact hreads
  · -- before its end a run has made no more reads than at it
    intro n e hn
    have hle : ∀ l ≤ n, (place p config i w).reads l ≤ k := fun l hl => Nat.le_trans (reads_mono _ hl) hn
    constructor
    · intro h
      exact h.congr (fun l hl => (hstates l (hle l hl)).finished_eq.symm) fun l hl => (hstops l (hle _ hl)).symm
    · intro h
      exact h.congr (fun l hl => (hstates l (hle l hl)).finished_eq) fun l hl => hstops l (hle _ hl)

end Machine

/-- an execution in two sessions, of which one ends with no more than `k` reads -/
theorem Session.execute_alike_until {s : Session σ τ} {s' : Session σ' τ'} (hR : AlikeUntil k R) (hQ : SinksAlike Q)
    (hconfig : s'.config = s.config) (hsource : R 0 s.feed.source s'.feed.source) (hsink : Q s.sink s'.sink) {job : Job}
    (hjob : job.Parsed) {m : Machine σ τ} (hm : s.prepare job = .ok m) :
    ∃ m', s'.prepare job = .ok m' ∧ SameUntil k R Q m m' ∧
      ∀ n e, m.Ends n e → m.reads n ≤ k → ∀ u ≥ n,
        ExecutesAlike (R (m.reads n)) Q s s' job (s.execute u job) (s'.execute u job) := by
  cases hp : job.program s.config with
  | error e =>
    rw [s.prepare_eq_error hp] at hm
    cases hm
  | ok p =>
    obtain rfl := Except.ok.inj ((s.prepare_eq_place hp).symm.trans hm)
    have hm' := s'.prepare_eq_place (by rw [hconfig, hp])
    rw [hconfig] at hm'
    have hwell := Job.wellFormed_of_program hjob hp
    have hfits := World.fits_initial s.config s.feed.source s.sink
    have hstart : World.Alike (R 0) Q (.initial s.config s.feed.source s.sink)
        (.initial s.config s'.feed.source s'.sink) :=
      .onStreams (w := .initial s.config s.feed.source s.sink) hsource hsink
    have hsame := Machine.sameUntil_place (i := 0) hwell hR hQ hfits hstart
    refine ⟨_, hm', hsame, fun n e hends hn u hu => ?_⟩
    have hrun := run_of_ends hjob hm hends hu
    have hrun' := run_of_ends hjob hm' ((hsame.ends n e hn).2 hends) hu
    obtain ⟨j, w, v, h, h', -, hv, -⟩ := Machine.after_alike_until hwell hR hQ hfits hstart n hn
    rw [h] at hrun
    rw [h'] at hrun'
    obtain ⟨e', w', v', hv', hx, hx'⟩ := Machine.execute_of_run_alike hQ hrun hrun' hv
    rw [execute_of_prepare hm hx, execute_of_prepare hm' hx']
    obtain ⟨hs, ht⟩ := hv'
    exact .ran hp (.onStreams hs ht)

end Runs

/-! ## Inputs with the same beginning -/

/-- the sources had the bytes `d` and `d'`, of which the first `r` have been read -/
def Source.HaveGiven (d d' : List UInt8) (r : Nat) (s s' : Source) : Prop := s.Holds (d.drop r) ∧ s'.Holds (d'.drop r)

namespace Source

variable {d d' : List UInt8} {k r : Nat} {s s' : Source}

/-- after its first `r` bytes a source gives the next one -/
theorem Holds.next_drop (h : s.Holds (d.drop r)) {b : UInt8} (hb : d[r]? = some b) :
    ∃ rest, s.next = (.byte b, rest) ∧ rest.Holds (d.drop (r + 1)) := by
  obtain ⟨hlt, rfl⟩ := List.getElem?_eq_some_iff.1 hb
  rw [List.drop_eq_getElem_cons hlt] at h
  exact h.next_cons

/-- while the beginnings agree, both sources give the same byte -/
theorem alikeUntil_haveGiven (hk : k ≤ d.length) (hsame : d'.take k = d.take k) : AlikeUntil k (HaveGiven d d') := by
  rintro r hr s s' ⟨h, h'⟩ reading rest hread
  have hb : d[r]? = some d[r] := List.getElem?_eq_getElem (Nat.lt_of_lt_of_le hr hk)
  have hb' : d'[r]? = some d[r] := by
    calc d'[r]? = (d'.take k)[r]? := (List.getElem?_take_of_lt hr).symm
      _ = (d.take k)[r]? := by rw [hsame]
      _ = some d[r] := (List.getElem?_take_of_lt hr).trans hb
  obtain ⟨rest₁, hnext, hrest⟩ := h.next_drop hb
  obtain ⟨rest', hnext', hrest'⟩ := h'.next_drop hb'
  obtain ⟨rfl, rfl⟩ := Prod.mk.inj (hnext.symm.trans hread)
  exact ⟨rest', hnext', hrest, hrest'⟩

end Source

variable [ByteSink τ]

/-- the machine takes the bytes of its input one for each read, and in order, for `k` reads -/
structure Consumes (k : Nat) (d : List UInt8) (m : Machine Source τ) : Prop where
  /-- what is left -/
  left : ∀ n, m.reads n ≤ k → (m.after n).source.Holds (d.drop (m.reads n))
  /-- a read succeeds, and the next byte is in the cell then -/
  given : ∀ n, (m.after n).ReadsNext → m.reads n < k →
    (m.after n).step.1 = none ∧ d[m.reads n]? = some (m.after (n + 1)).cell

theorem Machine.consumes_place {p : Program} {config : Config} {i k : Nat} {w : World Source τ} {d : List UInt8}
    (hp : p.WellFormed) (hw : w.Fits config) (hd : w.source.Holds d) (hk : k ≤ d.length) :
    Consumes k d (place p config i w) := by
  -- the machine beside itself, for what is left after so many steps
  have hafter := after_alike_until (i := i) hp (Source.alikeUntil_haveGiven hk rfl) sinksAlike_eq hw
    (.onStreams (R := Source.HaveGiven d d 0) ⟨hd, hd⟩ rfl)
  constructor
  · intro n hn
    obtain ⟨j, w', _, h, -, -, ⟨hs, -⟩, -⟩ := hafter n hn
    rw [h]
    exact hs.1
  · intro n hreads hlt
    obtain ⟨j, w', _, h, -, hw', ⟨hs, -⟩, -⟩ := hafter n (Nat.le_of_lt hlt)
    rw [h] at hreads
    obtain ⟨hallowed, hc⟩ := readsNext_place_iff.1 hreads
    have hb : d[(place p config i w).reads n]? = some d[(place p config i w).reads n] :=
      List.getElem?_eq_getElem (Nat.lt_of_lt_of_le hlt hk)
    obtain ⟨rest, hnext, -⟩ := hs.1.next_drop hb
    have hstep := step_of_moves hp hw' (.plain hallowed hc (.input hnext))
    refine ⟨by rw [h, hstep], ?_⟩
    rw [hb, after, h, hstep]
    exact congrArg some (Tape.read_write_self _ hw'.pointer_lt).symm

/-- the session with another input -/
def Session.withFeed {σ : Type} (s : Session σ τ) (feed : Feed σ) : Session σ τ := { s with feed := feed }

/-- **Input that has not been read does not matter.** Take a machine, and the one of the same session on another input,
of whatever kind, that has the same first `k` bytes. While no more than `k` inputs are dispatched, both are in the same
states, and stop and end alike; each has taken one byte of its input for each read, in order, and has the others left.
An execution that ends so has the same result on both. -/
theorem unread_input_is_irrelevant (s : Session Source τ) (other : Feed Source) (d d' : List UInt8) (k : Nat)
    (hd : s.feed.source.Holds d) (hd' : other.source.Holds d') (hk : k ≤ d.length) (hsame : d'.take k = d.take k)
    (job : Job) (hjob : job.Parsed) (m : Machine Source τ) (hm : s.prepare job = .ok m) :
    ∃ m', (s.withFeed other).prepare job = .ok m' ∧ SameUntil k (Source.HaveGiven d d') Eq m m' ∧
      Consumes k d m ∧ Consumes k d' m' ∧
      ∀ n e, m.Ends n e → m.reads n ≤ k → ∀ u ≥ n, Session.ExecutesAlike (Source.HaveGiven d d' (m.reads n)) Eq s
        (s.withFeed other) job (s.execute u job) ((s.withFeed other).execute u job) := by
  have hk' : k ≤ d'.length := by
    have hlength := congrArg List.length hsame
    rw [List.length_take, List.length_take, Nat.min_eq_left hk] at hlength
    exact min_eq_left_iff.1 hlength
  have hconfig : (s.withFeed other).config = s.config := rfl
  obtain ⟨m', hm', hsameUntil, hexecute⟩ := Session.execute_alike_until (Source.alikeUntil_haveGiven hk hsame)
    sinksAlike_eq hconfig ⟨hd, hd'⟩ rfl hjob hm
  refine ⟨m', hm', hsameUntil, ?_, ?_, hexecute⟩
  · obtain ⟨p, hp, rfl⟩ := Session.exists_place_of_prepare hjob hm
    exact Machine.consumes_place hp (World.fits_initial _ _ _) hd hk
  · obtain ⟨p, hp, rfl⟩ := Session.exists_place_of_prepare hjob hm'
    exact Machine.consumes_place hp (World.fits_initial _ _ _) hd' hk'

/-- bytes in memory and a text stream that differ in the second byte, which the program does not read -/
theorem unread_input_is_irrelevant_second_byte :
    ∃ (s : Session Source Sink) (other : Feed Source) (m m' : Machine Source Sink), s.feed.source.Holds [1, 2] ∧
      other.source.Holds [1, 9] ∧ s.prepare (.script (.text ",.")) = .ok m ∧
      (s.withFeed other).prepare (.script (.text ",.")) = .ok m' ∧ m.reads 2 = 1 ∧ m.Ends 2 .finished ∧
      m'.Ends 2 .finished ∧ (m'.after 2).bare = (m.after 2).bare ∧ (m'.after 2).source.Holds [9] ∧
      (m.after 1).cell = 1 := by
  let s : Session Source Sink := .start {} (Origin.bytes [1, 2]).feed (.buffer #[])
  let other : Feed Source := (Origin.handle (.text [Char.ofNat 1, Char.ofNat 9])).feed
  have hd : s.feed.source.Holds [1, 2] := .buffer [1, 2]
  have hd' : other.source.Holds [1, 9] := .textStream [Char.ofNat 1, Char.ofNat 9] []
  obtain ⟨m, hm, hreads, hnext, hgo, hstop, hgo', hstop', hend⟩ :
      ∃ m, s.prepare (.script (.text ",.")) = .ok m ∧ m.reads 2 = 1 ∧ m.ReadsNext ∧
        m.finished = false ∧ m.step.1 = none ∧
        (m.after 1).finished = false ∧ (m.after 1).step.1 = none ∧ (m.after 2).finished = true := by
    refine ⟨_, rfl, ?_⟩
    decide +kernel
  have hends : m.Ends 2 .finished := by
    refine .finished (fun n hn => ?_) hend
    interval_cases n
    · exact ⟨hgo, hstop⟩
    · exact ⟨hgo', hstop'⟩
  obtain ⟨m', hm', hsame, hconsumes, hconsumes', -⟩ := unread_input_is_irrelevant s other _ _ 1 hd hd' (by decide) rfl
    (.script (.text ",.")) trivial m hm
  have hreads' : m'.reads 2 = 1 := (hsame.reads 2 hreads.le).trans hreads
  have hleft := hconsumes'.left 2 hreads'.le
  rw [hreads'] at hleft
  obtain ⟨-, hgiven⟩ := hconsumes.given 0 hnext Nat.one_pos
  refine ⟨s, other, m, m', hd, hd', hm, hm', hreads, hends, (hsame.ends 2 _ hreads.le).2 hends, ?_, hleft, ?_⟩
  · exact (hsame.states 2 hreads.le).bare_eq
  · exact (Option.some.inj hgiven).symm

end Brainfuck
