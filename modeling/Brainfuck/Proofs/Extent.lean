/-
How long the tape gets, and which cells a run can have changed.

- `Config.lengthFor config hi`: the length that the configuration gives the tape of a run whose pointer has come as far
  as `hi`. A tape that grows is its first length and so many whole extensions, and no more than are needed
  (`isLeast_lengthFor`).
- `Touches config t x t' x'`: what one step may do to the tape and the pointer. It writes the cell under the pointer, or
  moves the pointer by one cell, and extends the tape only if the pointer would leave it. Every move does one of these
  (`Moves.touches`).
- `Machine.pointers m k`: where the pointer was in the first `k` steps, the start included.
- `Spans config lo hi t`: the tape is as long as the greatest pointer `hi` demands, and no cell outside `lo` and `hi`
  was written. One touch keeps this with the new pointer taken in (`Spans.touch`), so it holds after any number of
  steps (`exists_spans`).
-/
import Mathlib.Algebra.Order.Floor.Div
import Brainfuck.Proofs.Memory

namespace Brainfuck

/-! ## The length for a pointer -/

namespace Config

variable {config : Config} {hi q : Nat}

/-- how often the tape is extended before the pointer comes to `hi` -/
def extensionsFor (config : Config) (hi : Nat) : Nat := (hi + 1 - config.tapeLength) ⌈/⌉ config.growthChunk

/-- the length of the tape of a run whose pointer has come as far as `hi` -/
def lengthFor (config : Config) (hi : Nat) : Nat :=
  if config.allowGrowth then config.tapeLength + config.growthChunk * config.extensionsFor hi else config.tapeLength

theorem extensionsFor_le_iff : config.extensionsFor hi ≤ q ↔ hi < config.tapeLength + config.growthChunk * q := by
  rw [extensionsFor, ceilDiv_le_iff_le_mul config.growthChunk_pos]
  omega

theorem lt_extended (config : Config) (hi : Nat) :
    hi < config.tapeLength + config.growthChunk * config.extensionsFor hi :=
  extensionsFor_le_iff.1 (Nat.le_refl _)

/-- nothing is added while the pointer stays on the tape -/
theorem extensionsFor_of_lt {y : Nat} (hle : hi ≤ y)
    (hlt : y < config.tapeLength + config.growthChunk * config.extensionsFor hi) :
    config.extensionsFor y = config.extensionsFor hi :=
  Nat.le_antisymm (extensionsFor_le_iff.2 hlt)
    (extensionsFor_le_iff.2 (Nat.lt_of_le_of_lt hle (config.lt_extended y)))

/-- just behind the tape one more extension is needed, and enough -/
theorem extensionsFor_of_eq {y : Nat}
    (heq : y = config.tapeLength + config.growthChunk * config.extensionsFor hi) :
    config.extensionsFor y = config.extensionsFor hi + 1 := by
  have hpos := config.growthChunk_pos
  refine Nat.le_antisymm (extensionsFor_le_iff.2 ?_) (Nat.lt_of_not_le fun hle => ?_)
  · rw [Nat.mul_succ]
    omega
  · exact absurd (extensionsFor_le_iff.1 hle) (by omega)

/-- the length of a tape that grows is the least with whole extensions that contains the pointer -/
theorem isLeast_lengthFor (h : config.allowGrowth = true) :
    IsLeast {l | hi < l ∧ ∃ q, l = config.tapeLength + config.growthChunk * q} (config.lengthFor hi) := by
  rw [lengthFor, if_pos h]
  refine ⟨⟨config.lt_extended hi, _, rfl⟩, ?_⟩
  rintro l ⟨hlt, q, rfl⟩
  exact Nat.add_le_add_left (Nat.mul_le_mul_left _ (extensionsFor_le_iff.2 hlt)) _

end Config

/-! ## One step -/

/-- what one step may do to the tape `t` with the pointer at `x` -/
inductive Touches (config : Config) (t : Tape) (x : Nat) : Tape → Nat → Prop where
  | stay : Touches config t x t x
  | write (b : UInt8) : Touches config t x (t.write x b) x
  | left {y : Nat} : x = y + 1 → Touches config t x t y
  | right : x + 1 < t.length → Touches config t x t (x + 1)
  | extend : x + 1 = t.length → config.allowGrowth = true → Touches config t x (t.grow (x + 2)) (x + 1)

section Steps

variable {σ τ : Type} [ByteSource σ] [ByteSink τ] {p : Program} {config : Config} {i j : Nat} {stop : Option Stop}
variable {w w' : World σ τ}

theorem Effect.touches {c : Command} (h : Effect config i c w stop w') :
    Touches config w.tape w.pointer w'.tape w'.pointer := by
  cases h with
  | right hlt => exact .right hlt
  | rightGrow hend hg => exact .extend hend hg
  | left hk => exact .left hk
  | increment | decrement | input | inputZero | inputValue => exact .write _
  | _ => exact .stay

theorem Moves.touches (h : Moves p config i w stop j w') : Touches config w.tape w.pointer w'.tape w'.pointer := by
  cases h with
  | plain _ _ he | plainStop _ _ he => exact he.touches
  | _ => exact .stay

end Steps

/-- a cell that is not under the pointer is not touched -/
theorem Touches.read_eq {config : Config} {t t' : Tape} {x x' : Nat} (h : Touches config t x t' x') {i : Nat}
    (hi : i ≠ x) : t'.read i = t.read i := by
  cases h with
  | write b => exact Tape.read_write_of_ne b hi.symm
  | extend => exact Tape.read_grow t _ i
  | _ => rfl

/-- what a run whose pointer was between `lo` and `hi` has made of the tape -/
structure Spans (config : Config) (lo hi : Nat) (t : Tape) : Prop where
  length : t.length = config.lengthFor hi
  lt : hi < t.length
  blank : ∀ i, i < lo ∨ hi < i → t.read i = 0

namespace Spans

variable {config : Config} {lo hi x x' : Nat} {t t' : Tape}

theorem initial (config : Config) :
    Spans config config.startOffset config.startOffset
      (.zeros config.tapeLength config.allowGrowth config.growthChunk) := by
  refine ⟨?_, config.startOffset_lt, fun i _ => Tape.read_zeros ..⟩
  have hzero : config.extensionsFor config.startOffset = 0 :=
    Nat.le_zero.1 (Config.extensionsFor_le_iff.2 config.startOffset_lt)
  simp [Config.lengthFor, hzero]

/-- the length that is left when the pointer goes on and stays on the tape -/
theorem lengthFor_eq (h : Spans config lo hi t) (hle : hi ≤ x') (hlt : x' < t.length) :
    config.lengthFor x' = config.lengthFor hi := by
  rw [h.length] at hlt
  unfold Config.lengthFor at hlt ⊢
  split
  · next hg =>
    rw [if_pos hg] at hlt
    rw [Config.extensionsFor_of_lt hle hlt]
  · rfl

/-- the length after the pointer has left the tape at its end -/
theorem length_extended (h : Spans config lo hi t) (hg : config.allowGrowth = true)
    (hchunk : t.growthChunk = config.growthChunk) (hx : x' = t.length) :
    (t.grow (x' + 1)).length = config.lengthFor x' := by
  have hpos := config.growthChunk_pos
  have hlength := h.length
  rw [Config.lengthFor, if_pos hg] at hlength
  rw [Config.lengthFor, if_pos hg, Config.extensionsFor_of_eq (hx.trans hlength), Nat.mul_succ, ← Nat.add_assoc,
    ← hlength]
  have hgrow := Tape.length_grow t (x' + 1)
  rw [if_neg (by omega), hchunk] at hgrow
  omega

/-- one step keeps this, with the new pointer taken in -/
theorem touch (h : Spans config lo hi t) (hlo : lo ≤ x) (hhi : x ≤ hi) (hchunk : t.growthChunk = config.growthChunk)
    (ht : Touches config t x t' x') : Spans config (min x' lo) (max x' hi) t' := by
  have hblank : ∀ i, i < min x' lo ∨ max x' hi < i → t'.read i = 0 := by
    intro i hi
    rw [ht.read_eq (by omega), h.blank i (by omega)]
  -- while the tape keeps its length it is long enough, because the new pointer is on it
  have hkeep : t'.length = t.length → x' < t.length → Spans config (min x' lo) (max x' hi) t' := by
    intro hlength hx
    have hlt : max x' hi < t.length := max_lt hx h.lt
    refine ⟨?_, hlength ▸ hlt, hblank⟩
    rw [hlength, h.length, h.lengthFor_eq (le_max_right x' hi) hlt]
  have hlt : x < t.length := Nat.lt_of_le_of_lt hhi h.lt
  cases ht with
  | stay => exact hkeep rfl hlt
  | write b => exact hkeep (Tape.length_write ..) hlt
  | left hy => exact hkeep rfl (by omega)
  | right hx => exact hkeep rfl hx
  | extend hend hg =>
    have hlength := h.length_extended hg hchunk hend
    have hmax : max (x + 1) hi = x + 1 := max_eq_left (by have := h.lt; omega)
    rw [hmax] at hblank ⊢
    refine ⟨by simpa [add_assoc] using hlength, ?_, hblank⟩
    have := (Tape.le_length_grow t (x + 2)).1
    omega

end Spans

/-! ## Runs -/

namespace Machine

variable {σ τ : Type} [ByteSource σ] [ByteSink τ]

/-- where the pointer was in the first `k` steps, the start included -/
def pointers (m : Machine σ τ) (k : Nat) : Set Nat := {x | ∃ n ≤ k, (m.after n).pointer = x}

theorem pointers_zero (m : Machine σ τ) : m.pointers 0 = {m.pointer} := by
  ext x
  simp [pointers, after, eq_comm]

theorem pointers_succ (m : Machine σ τ) (k : Nat) :
    m.pointers (k + 1) = insert (m.after (k + 1)).pointer (m.pointers k) := by
  ext x
  constructor
  · rintro ⟨n, hn, rfl⟩
    rcases Nat.le_succ_iff.1 hn with hle | rfl
    · exact .inr ⟨n, hle, rfl⟩
    · exact .inl rfl
  · rintro (rfl | ⟨n, hn, rfl⟩)
    · exact ⟨k + 1, Nat.le_refl _, rfl⟩
    · exact ⟨n, Nat.le_succ_of_le hn, rfl⟩

theorem exists_spans {p : Program} (hp : p.WellFormed) (config : Config) (source : σ) (sink : τ) (k : Nat) :
    let m := place p config 0 (.initial config source sink)
    ∃ i w lo hi, m.after k = place p config i w ∧ w.Fits config ∧ IsLeast (m.pointers k) lo ∧
      IsGreatest (m.pointers k) hi ∧ Spans config lo hi w.tape := by
  intro m
  induction k with
  | zero =>
    rw [pointers_zero]
    exact ⟨0, _, _, _, rfl, World.fits_initial .., isLeast_singleton, isGreatest_singleton, .initial config⟩
  | succ k ih =>
    obtain ⟨i, w, lo, hi, hk, hw, hlo, hhi, hspans⟩ := ih
    obtain ⟨stop, j, w', hmove⟩ := exists_moves hp i hw
    have hnext : m.after (k + 1) = place p config j w' := by
      rw [after, hk, step_of_moves hp hw hmove]
    have hmem : w.pointer ∈ m.pointers k := ⟨k, Nat.le_refl k, by rw [hk]; rfl⟩
    have hpointer : (m.after (k + 1)).pointer = w'.pointer := by rw [hnext]; rfl
    rw [pointers_succ, hpointer]
    exact ⟨j, w', _, _, hnext, hmove.fits hw, hlo.insert _, hhi.insert _,
      hspans.touch (hlo.2 hmem) (hhi.2 hmem) hw.growthChunk hmove.touches⟩

omit [ByteSource σ] in
theorem tape_complete (m : Machine σ τ) : m.complete.2.tape = m.tape := by
  unfold complete
  split
  · rfl
  · split
    · rfl
    · unfold failStream
      split <;> rfl

/-- an execution that finishes ends where the run does, with its tape -/
theorem exists_ends_of_execute {m : Machine σ τ} {n : Nat} (h : (m.execute n).1 = .finished) :
    ∃ k, m.Ends k .finished ∧ (m.execute n).2.tape = (m.after k).tape := by
  rcases m.ends_or_dispatches n with ⟨k, hk, e, he⟩ | ⟨hall, hgo⟩
  · have hrun := he.run_eq hk
    cases e with
    | finished =>
      refine ⟨k, he, ?_⟩
      have htape := tape_complete (m.after k)
      rcases hcomplete : (m.after k).complete with ⟨stop, m'⟩
      rw [hcomplete] at htape
      cases stop with
      | none => simpa only [execute, hrun, hcomplete] using htape
      | some s =>
        simp only [execute, hrun, hcomplete] at h
        cases h
    | stopped | unfinished =>
      simp only [execute, hrun] at h
      cases h
  · simp only [execute, run_of_dispatches hall hgo] at h
    cases h

end Machine

/-- **The tape is as long as the pointer demands.** After any number of steps, failed ones included, the tape has the
length that the configuration and the greatest pointer of the run give; if it grows, that is the least length with
whole extensions that contains the pointer. The cells below the least pointer and above the greatest are zero, and a
step changes no cell but the one that the pointer was at. So the size of the memory that a finished program reports
depends on nothing else. -/
theorem tape_as_long_as_needed {σ τ : Type} [ByteSource σ] [ByteSink τ] (s : Session σ τ) (job : Job)
    (hjob : job.Parsed) (m : Machine σ τ) (hm : s.prepare job = .ok m) :
    (∀ k, ∃ lo hi, IsLeast (m.pointers k) lo ∧ IsGreatest (m.pointers k) hi ∧
      (m.after k).tape.length = s.config.lengthFor hi ∧
      (s.config.allowGrowth = true →
        IsLeast {l | hi < l ∧ ∃ q, l = s.config.tapeLength + s.config.growthChunk * q} (m.after k).tape.length) ∧
      (s.config.allowGrowth = false → (m.after k).tape.length = s.config.tapeLength) ∧
      (∀ i, i < lo ∨ hi < i → (m.after k).tape.read i = 0) ∧
      usedLength (m.after k).tape.snapshot ≤ hi + 1 ∧
      ∀ i, i ≠ (m.after k).pointer → (m.after (k + 1)).tape.read i = (m.after k).tape.read i) ∧
    ∀ u info, (s.execute u job).1 = .done info →
      ∃ k hi, m.Ends k .finished ∧ IsGreatest (m.pointers k) hi ∧ info.memorySize = s.config.lengthFor hi := by
  obtain ⟨p, hp, rfl⟩ := Session.exists_place_of_prepare hjob hm
  have hspans := Machine.exists_spans hp s.config s.feed.source s.sink
  constructor
  · intro k
    obtain ⟨i, w, lo, hi, hk, hw, hlo, hhi, hspan⟩ := hspans k
    obtain ⟨stop, j, w', hmove⟩ := exists_moves hp i hw
    refine ⟨lo, hi, hlo, hhi, ?_⟩
    rw [Machine.after, hk, Machine.step_of_moves hp hw hmove]
    refine ⟨hspan.length, fun hg => ?_, fun hg => ?_, hspan.blank, ?_, fun x hx => hmove.touches.read_eq hx⟩
    · exact hspan.length ▸ Config.isLeast_lengthFor hg
    · exact hspan.length.trans (if_neg (by simp [hg]))
    · refine (usedLength_le_iff _ _).2 fun x hx => ?_
      rw [Tape.getD_snapshot]
      exact hspan.blank x (.inr hx)
  · intro u info hinfo
    set m := Machine.place p s.config 0 (World.initial s.config s.feed.source s.sink)
    rcases hx : m.execute (m.patience u) with ⟨e, m'⟩
    rw [Session.execute_of_prepare hm hx] at hinfo
    cases e with
    | finished =>
      obtain ⟨k, hends, htape⟩ := Machine.exists_ends_of_execute (congrArg Prod.fst hx)
      obtain ⟨i, w, lo, hi, hk, -, -, hhi, hspan⟩ := hspans k
      rw [hx, hk] at htape
      obtain rfl : m'.info = info := Result.done.inj hinfo
      refine ⟨k, hi, hends, hhi, ?_⟩
      exact (congrArg Tape.length htape).trans hspan.length
    | stopped | unfinished => cases hinfo

/-- a tape of two cells that is extended by three, twice: four moves to the right take the pointer from one to five, and
the cells in front of one are never written -/
theorem tape_as_long_as_needed_two_extensions : ∃ (s : Session Source Sink) (m : Machine Source Sink) (info : Info),
    s.prepare (.script (.text ">>>>+<")) = .ok m ∧ s.config.tapeLength = 2 ∧ s.config.growthChunk = 3 ∧
    IsLeast (m.pointers 6) 1 ∧ IsGreatest (m.pointers 6) 5 ∧ s.config.lengthFor 5 = 8 ∧
    (m.after 6).tape.length = s.config.lengthFor 5 ∧ (m.after 6).tape.read 0 = 0 ∧
    (s.execute 7 (.script (.text ">>>>+<"))).1 = .done info ∧
    ∃ k hi, m.Ends k .finished ∧ IsGreatest (m.pointers k) hi ∧ info.memorySize = s.config.lengthFor hi := by
  let s : Session Source Sink :=
    .start { tapeLength := 2, growthChunk := 3, startOffset := 1 } (.replayed (.buffer [])) (.buffer #[])
  obtain ⟨m, hm, hfirst, hlast, hbounds⟩ : ∃ m, s.prepare (.script (.text ">>>>+<")) = .ok m ∧
      (m.after 0).pointer = 1 ∧ (m.after 4).pointer = 5 ∧
      ∀ n ≤ 6, 1 ≤ (m.after n).pointer ∧ (m.after n).pointer ≤ 5 := ⟨_, rfl, by decide +kernel⟩
  have hrun : (s.execute 7 (.script (.text ">>>>+<"))).1 = .done ⟨#[0, 0, 0, 0, 0, 1], 8, 4, 6, 6, 0, true⟩ := by
    decide +kernel
  obtain ⟨hstates, hinfo⟩ := tape_as_long_as_needed s (.script (.text ">>>>+<")) trivial m hm
  obtain ⟨lo, hi, hlo, hhi, hlength, -, -, hblank, -⟩ := hstates 6
  obtain rfl : lo = 1 :=
    hlo.unique ⟨⟨0, by decide, hfirst⟩, by rintro x ⟨n, hn, rfl⟩; exact (hbounds n hn).1⟩
  obtain rfl : hi = 5 :=
    hhi.unique ⟨⟨4, by decide, hlast⟩, by rintro x ⟨n, hn, rfl⟩; exact (hbounds n hn).2⟩
  exact ⟨s, m, _, hm, rfl, rfl, hlo, hhi, by decide, hlength, hblank 0 (.inl Nat.one_pos), hrun, hinfo 7 _ hrun⟩

end Brainfuck
