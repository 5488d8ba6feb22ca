/-
A session at the console, as orders handled one after another.

- `Console.orders last lines`: the orders that lines give, where a blank line gives the last one that was not blank.
- `Debugger.Handles d orders replies d'`: the orders are carried out one after another from `d` to `d'`, none by a
  halted debugger, and all of them go on. `Console.exchange`: what is written meanwhile, the state before each prompt.
- `Console.Outcome d read unread t`: what a session leaves that reads some orders and not the others. It ends where the
  debugger is halted, with an order to quit, or where no order is left. `Console.Diverges`: an order that is read has no
  answer.
- `Console.outcome_of_loop`: a session that ends has such an outcome, and would have it with any lines in place of the
  unread ones. `Console.loop_of_diverges`, `Console.exists_loop`: a session does not end only if it diverges.
- `console_handles_orders_in_turn`: all of it for the debuggers of a program, and that a finished machine has no error.
-/
import Brainfuck.Debugger.Console
import Brainfuck.Proofs.Failure
import Brainfuck.Proofs.Orders

namespace Brainfuck

namespace Debugger

variable {d d' : Debugger} {line : List Char} {patience patience' : Nat} {r r' : Reply}

/-! ## One order -/

/-- blanks at the ends of a line make no difference -/
theorem handle_strip (patience : Nat) (d : Debugger) (line : List Char) :
    d.handle patience (strip line) = d.handle patience line := by
  simp only [handle, Order.read, words_strip]

theorem handle_mono (h : d.handle patience line = some r) (hle : patience ≤ patience') :
    d.handle patience' line = some r := by
  induction hle with
  | refl => exact h
  | step _ ih => exact obey_succ ih

theorem handle_unique (h : d.handle patience line = some r) (h' : d.handle patience' line = some r') : r = r' := by
  have hmost := handle_mono h (Nat.le_max_left patience patience')
  have hmost' := handle_mono h' (Nat.le_max_right patience patience')
  exact Option.some.inj (hmost.symm.trans hmost')

/-! ## Orders one after another -/

/-- orders carried out from one debugger to another, none of them by a halted one, with replies that all go on -/
inductive Handles : Debugger → List (List Char) → List Reply → Debugger → Prop where
  | nil (d : Debugger) : Handles d [] [] d
  | cons {d d' : Debugger} {order : List Char} {orders : List (List Char)} {patience : Nat} {r : Reply}
      {replies : List Reply} : d.halted = false → d.handle patience order = some r → r.goesOn = true →
      Handles r.debugger orders replies d' → Handles d (order :: orders) (r :: replies) d'

theorem reaches_handle {d₀ : Debugger} {k : Nat} (hd : Reaches d₀ k d) (h : d.handle patience line = some r) :
    ∃ l, Reaches d₀ l r.debugger :=
  ⟨_, hd.perform patience (.handle line) (by rw [perform, h]; rfl)⟩

theorem Handles.reaches {d₀ : Debugger} {orders : List (List Char)} {replies : List Reply} {k : Nat}
    (h : Handles d orders replies d') (hd : Reaches d₀ k d) : ∃ l, Reaches d₀ l d' := by
  induction h generalizing k with
  | nil => exact ⟨k, hd⟩
  | cons _ hr _ _ ih =>
    obtain ⟨l, hl⟩ := reaches_handle hd hr
    exact ih hl

/-- a step that stops leaves the index where it is, so a machine that was stopped is not finished -/
theorem Tracks.failure_of_finished {code : Script} {config : Config} {input : List UInt8} {m : Machine Source Sink}
    {k : Nat} (hm : (session config input).prepare (.script code) = .ok m) (h : Tracks m k d)
    (hfin : d.machine.finished = true) : d.failure = none := by
  cases h with
  | running _ _ hf => exact hf
  | @stopped s _ hgo hstep _ =>
    obtain ⟨p, i, w, hp, hw, -, hplace⟩ := exists_place hm k
    obtain ⟨stop, j, w', hmove⟩ := exists_moves hp i hw
    rw [hplace, Machine.step_of_moves hp hw hmove, Prod.mk.injEq] at hstep
    obtain ⟨rfl, hmachine⟩ := hstep
    have hsame : d.machine.finished = (Machine.place p config i w).finished := by
      rw [← hmachine, Machine.finished_place, Machine.finished_place, hmove.kept.1]
    rw [hplace, ← hsame, hfin] at hgo
    cases hgo

end Debugger

namespace Console

variable {c : Console} {d d' : Debugger} {line order : List Char} {lines rest read unread : List (List Char)}
  {last : List Char} {patience patience' n : Nat} {r : Reply} {t : Transcript}

/-! ## Orders of lines -/

/-- the last of the lines that is not blank, without the blanks at its ends, or this order if there is none -/
def repeated (last : List Char) (lines : List (List Char)) : List Char :=
  ((lines.map strip).filter (· ≠ [])).getLast?.getD last

/-- the order that a line gives behind lines that leave this one to repeat -/
def given (last line : List Char) : List Char := if strip line = [] then last else line

/-- the orders that lines give -/
def orders (last : List Char) (lines : List (List Char)) : List (List Char) :=
  lines.mapIdx fun i line => given (repeated last (lines.take i)) line

theorem repeated_cons : repeated last (line :: rest) = repeated (repeated last [line]) rest := by
  by_cases hblank : strip line = []
  · simp [repeated, hblank]
  · simp [repeated, hblank, List.getLast?_cons]

theorem orders_cons : orders last (line :: rest) = given last line :: orders (repeated last [line]) rest := by
  have hbehind : (fun i line' => given (repeated last ((line :: rest).take (i + 1))) line') =
      fun i line' => given (repeated (repeated last [line]) (rest.take i)) line' := by
    funext i line'
    rw [List.take_succ_cons, repeated_cons]
  rw [orders, List.mapIdx_cons, hbehind]
  rfl

theorem order_eq_repeated (c : Console) (line : List Char) : c.order line = repeated c.last [line] := by
  unfold order
  split
  · next h => simp [repeated, h]
  · next h =>
    have hne : strip line ≠ [] := h
    simp [repeated, hne]

/-- the console strips a line that is not blank, which makes no difference -/
theorem handle_order (patience : Nat) (c : Console) (line : List Char) :
    c.debugger.handle patience (c.order line) = c.debugger.handle patience (given c.last line) := by
  unfold order given
  split
  · next h => rw [if_pos h]
  · next h => rw [if_neg h, Debugger.handle_strip]

theorem answer_eq (patience : Nat) (c : Console) (line : List Char) :
    c.answer patience line =
      (c.debugger.handle patience (given c.last line)).map fun r => (r, ⟨r.debugger, repeated c.last [line]⟩) := by
  simp only [answer, handle_order]
  rw [order_eq_repeated]

/-! ## The loop, step by step -/

/-- what is written before an order, and about it -/
def shown (d : Debugger) (r : Reply) : List ConsoleText :=
  .printed d.state :: .prompt promptText :: r.printed.map .printed

/-- what is written last -/
def lastText (d : Debugger) : ConsoleText :=
  .printed (if d.machine.finished then "Execution finished." else "Debugger exited.")

theorem loop_of_halted (h : c.debugger.halted = true) :
    c.loop patience lines = some ⟨[.printed c.debugger.state, lastText c.debugger], c.debugger, false⟩ := by
  cases lines with
  | nil => rw [loop, if_pos h]; rfl
  | cons line rest => rw [loop, if_pos h]; rfl

theorem loop_nil (h : c.debugger.halted = false) :
    c.loop patience [] =
      some ⟨[.printed c.debugger.state, .prompt promptText, lastText c.debugger], c.debugger, true⟩ := by
  rw [loop, if_neg (by simp [h])]
  rfl

theorem loop_cons (h : c.debugger.halted = false) :
    c.loop patience (line :: rest) =
      (c.debugger.handle patience (given c.last line)).bind fun r =>
        if r.goesOn then (loop patience ⟨r.debugger, repeated c.last [line]⟩ rest).map (·.after (shown c.debugger r))
        else some ⟨shown c.debugger r ++ [lastText r.debugger], r.debugger, false⟩ := by
  rw [loop, if_neg (by simp [h]), answer_eq]
  cases c.debugger.handle patience (given c.last line) with
  | none => rfl
  | some r =>
    cases hon : r.goesOn with
    | true =>
      simp only [Option.map_some, Option.bind_some, Option.bind_eq_bind, hon, if_true]
      cases loop patience ⟨r.debugger, repeated c.last [line]⟩ rest <;> rfl
    | false =>
      simp only [Option.map_some, Option.bind_some, Option.bind_eq_bind, hon, Bool.false_eq_true, if_false]
      rfl

theorem loop_cons_of_goesOn (h : c.debugger.halted = false)
    (hr : c.debugger.handle patience (given c.last line) = some r) (hon : r.goesOn = true) :
    c.loop patience (line :: rest) =
      (loop patience ⟨r.debugger, repeated c.last [line]⟩ rest).map (·.after (shown c.debugger r)) := by
  rw [loop_cons h, hr, Option.bind_some, if_pos hon]

theorem loop_cons_of_quit (h : c.debugger.halted = false)
    (hr : c.debugger.handle patience (given c.last line) = some r) (hoff : r.goesOn = false) :
    c.loop patience (line :: rest) = some ⟨shown c.debugger r ++ [lastText r.debugger], r.debugger, false⟩ := by
  rw [loop_cons h, hr, Option.bind_some, if_neg (by simp [hoff])]

theorem loop_cons_of_none (h : c.debugger.halted = false)
    (hr : c.debugger.handle patience (given c.last line) = none) :
    c.loop patience (line :: rest) = none := by
  rw [loop_cons h, hr, Option.bind_none]

theorem loop_mono (h : c.loop patience lines = some t) (hle : patience ≤ patience') :
    c.loop patience' lines = some t := by
  induction lines generalizing c t with
  | nil => exact h
  | cons line rest ih =>
    cases hgo : c.debugger.halted with
    | true =>
      rw [loop_of_halted hgo] at h ⊢
      exact h
    | false =>
      cases hr : c.debugger.handle patience (given c.last line) with
      | none =>
        rw [loop_cons_of_none hgo hr] at h
        cases h
      | some r =>
        have hr' := Debugger.handle_mono hr hle
        cases hon : r.goesOn with
        | true =>
          rw [loop_cons_of_goesOn hgo hr hon] at h
          obtain ⟨t', ht', rfl⟩ := Option.map_eq_some_iff.1 h
          rw [loop_cons_of_goesOn hgo hr' hon, ih ht', Option.map_some]
        | false =>
          rw [loop_cons_of_quit hgo hr hon] at h
          rw [loop_cons_of_quit hgo hr' hon, h]

/-! ## What a session leaves -/

/-- what is written for orders that are carried out one after another -/
def exchange : Debugger → List Reply → List ConsoleText
  | _, [] => []
  | d, r :: replies => shown d r ++ exchange r.debugger replies

/-- what a session leaves that reads these orders, and not the others: the texts, the debugger, and whether it asks for
a line when none is left -/
inductive Outcome (d : Debugger) : List (List Char) → List (List Char) → Transcript → Prop where
  | halted {read unread : List (List Char)} {replies : List Reply} {d' : Debugger} : d.Handles read replies d' →
      d'.halted = true → Outcome d read unread ⟨exchange d replies ++ [.printed d'.state, lastText d'], d', false⟩
  | quit {read unread : List (List Char)} {order : List Char} {replies : List Reply} {d' : Debugger} {patience : Nat}
      {r : Reply} : d.Handles read replies d' → d'.halted = false → d'.handle patience order = some r →
      r.goesOn = false →
      Outcome d (read ++ [order]) unread
        ⟨exchange d replies ++ shown d' r ++ [lastText r.debugger], r.debugger, false⟩
  | outOfLines {read : List (List Char)} {replies : List Reply} {d' : Debugger} : d.Handles read replies d' →
      d'.halted = false →
      Outcome d read [] ⟨exchange d replies ++ [.printed d'.state, .prompt promptText, lastText d'], d', true⟩

/-- an order is read that has no answer -/
def Diverges (d : Debugger) (orders : List (List Char)) : Prop :=
  ∃ read order unread replies d', orders = read ++ order :: unread ∧ d.Handles read replies d' ∧ d'.halted = false ∧
    ∀ patience, d'.handle patience order = none

/-- what comes of the orders behind one that goes on -/
theorem Outcome.cons (hgo : d.halted = false) (hr : d.handle patience order = some r) (hon : r.goesOn = true)
    (h : Outcome r.debugger read unread t) : Outcome d (order :: read) unread (t.after (shown d r)) := by
  cases h with
  | halted hhandles hhalted =>
    rw [Transcript.after, ← List.append_assoc]
    exact .halted (.cons hgo hr hon hhandles) hhalted
  | quit hhandles hgo' hr' hoff =>
    rw [Transcript.after, ← List.append_assoc, ← List.append_assoc]
    exact .quit (.cons hgo hr hon hhandles) hgo' hr' hoff
  | outOfLines hhandles hgo' =>
    rw [Transcript.after, ← List.append_assoc]
    exact .outOfLines (.cons hgo hr hon hhandles) hgo'

theorem Diverges.cons {orders : List (List Char)} (hgo : d.halted = false) (hr : d.handle patience order = some r)
    (hon : r.goesOn = true) (h : Diverges r.debugger orders) : Diverges d (order :: orders) := by
  obtain ⟨read, next, unread, replies, d', rfl, hhandles, hgo', hnone⟩ := h
  exact ⟨order :: read, next, unread, r :: replies, d', rfl, .cons hgo hr hon hhandles, hgo', hnone⟩

/-- the last text says whether the machine is finished -/
theorem Outcome.exists_texts (h : Outcome d read unread t) : ∃ texts, t.texts = texts ++ [lastText t.debugger] := by
  cases h with
  | halted => exact ⟨_, List.append_cons _ _ _⟩
  | quit => exact ⟨_, rfl⟩
  | outOfLines => exact ⟨_, (List.append_assoc _ [_, _] [_]).symm⟩

theorem Outcome.reaches {d₀ : Debugger} {k : Nat} (h : Outcome d read unread t) (hd : Debugger.Reaches d₀ k d) :
    ∃ l, Debugger.Reaches d₀ l t.debugger := by
  cases h with
  | halted hhandles _ => exact hhandles.reaches hd
  | quit hhandles _ hr _ =>
    obtain ⟨l, hl⟩ := hhandles.reaches hd
    exact Debugger.reaches_handle hl hr
  | outOfLines hhandles _ => exact hhandles.reaches hd

/-! ## Every session -/

/-- a session that ends has an outcome, and the lines that it has not read do not matter -/
theorem outcome_of_loop (h : c.loop patience lines = some t) :
    ∃ n ≤ lines.length,
      Outcome c.debugger ((orders c.last lines).take n) ((orders c.last lines).drop n) t ∧
      (t.outOfLines = false → ∀ more, c.loop patience (lines.take n ++ more) = some t) := by
  induction lines generalizing c t with
  | nil =>
    refine ⟨0, Nat.le_refl 0, ?_⟩
    cases hgo : c.debugger.halted with
    | true =>
      rw [loop_of_halted hgo] at h
      cases h
      exact ⟨.halted (.nil _) hgo, fun _ more => loop_of_halted hgo⟩
    | false =>
      rw [loop_nil hgo] at h
      cases h
      refine ⟨.outOfLines (.nil _) hgo, ?_⟩
      intro hnot
      cases hnot
  | cons line rest ih =>
    cases hgo : c.debugger.halted with
    | true =>
      rw [loop_of_halted hgo] at h
      cases h
      exact ⟨0, Nat.zero_le _, .halted (.nil _) hgo, fun _ more => loop_of_halted hgo⟩
    | false =>
      rw [orders_cons]
      cases hr : c.debugger.handle patience (given c.last line) with
      | none =>
        rw [loop_cons_of_none hgo hr] at h
        cases h
      | some r =>
        cases hon : r.goesOn with
        | true =>
          rw [loop_cons_of_goesOn hgo hr hon] at h
          obtain ⟨t', ht', rfl⟩ := Option.map_eq_some_iff.1 h
          obtain ⟨n, hn, houtcome, hmore⟩ := ih ht'
          refine ⟨n + 1, Nat.succ_le_succ hn, houtcome.cons hgo hr hon, fun hread more => ?_⟩
          rw [List.take_succ_cons, List.cons_append, loop_cons_of_goesOn hgo hr hon, hmore hread more, Option.map_some]
        | false =>
          rw [loop_cons_of_quit hgo hr hon] at h
          cases h
          have hquit : ∀ unread, Outcome c.debugger ([] ++ [given c.last line]) unread
              ⟨shown c.debugger r ++ [lastText r.debugger], r.debugger, false⟩ := fun _ => .quit (.nil _) hgo hr hon
          refine ⟨1, Nat.succ_le_succ (Nat.zero_le _), hquit _, fun _ more => ?_⟩
          exact loop_cons_of_quit hgo hr hon

theorem loop_of_diverges (h : Diverges c.debugger (orders c.last lines)) (patience : Nat) :
    c.loop patience lines = none := by
  induction lines generalizing c with
  | nil =>
    obtain ⟨read, order, unread, _, _, horders, -⟩ := h
    cases read <;> cases horders
  | cons line rest ih =>
    obtain ⟨read, order, unread, replies, d', horders, hhandles, hgo', hnone⟩ := h
    rw [orders_cons] at horders
    cases hhandles with
    | nil =>
      obtain ⟨rfl, -⟩ := List.cons.inj horders
      exact loop_cons_of_none hgo' (hnone patience)
    | cons hgo hr hon hrest =>
      obtain ⟨rfl, htail⟩ := List.cons.inj horders
      cases hr' : c.debugger.handle patience (given c.last line) with
      | none => exact loop_cons_of_none hgo hr'
      | some r' =>
        obtain rfl := Debugger.handle_unique hr hr'
        rw [loop_cons_of_goesOn hgo hr' hon, ih ⟨_, order, unread, _, d', htail, hrest, hgo', hnone⟩, Option.map_none]

/-- with patience enough, a session ends unless it diverges -/
theorem exists_loop (h : ¬ Diverges c.debugger (orders c.last lines)) : ∃ patience t, c.loop patience lines = some t := by
  induction lines generalizing c with
  | nil =>
    cases hgo : c.debugger.halted with
    | true => exact ⟨0, _, loop_of_halted hgo⟩
    | false => exact ⟨0, _, loop_nil hgo⟩
  | cons line rest ih =>
    rw [orders_cons] at h
    cases hgo : c.debugger.halted with
    | true => exact ⟨0, _, loop_of_halted hgo⟩
    | false =>
      have hanswers : ¬ ∀ patience, c.debugger.handle patience (given c.last line) = none :=
        fun hnone => h ⟨[], _, _, [], _, rfl, .nil _, hgo, hnone⟩
      obtain ⟨patience, hsome⟩ := not_forall.1 hanswers
      obtain ⟨r, hr⟩ := Option.ne_none_iff_exists'.1 hsome
      cases hon : r.goesOn with
      | false => exact ⟨patience, _, loop_cons_of_quit hgo hr hon⟩
      | true =>
        obtain ⟨patience', t, ht⟩ := ih (c := ⟨r.debugger, repeated c.last [line]⟩)
          fun hrest => h (hrest.cons hgo hr hon)
        -- patience for this order and for all the others
        have hr' := Debugger.handle_mono hr (Nat.le_max_left patience patience')
        have ht' := loop_mono ht (Nat.le_max_right patience patience')
        exact ⟨max patience patience', _, by rw [loop_cons_of_goesOn hgo hr' hon, ht', Option.map_some]⟩

theorem run_eq_none_iff : (∀ patience, run patience d lines = none) ↔ Diverges d (orders ['s'] lines) := by
  constructor
  · intro hnone
    by_contra hnot
    obtain ⟨patience, t, ht⟩ := exists_loop (c := start d) hnot
    have hrun := hnone patience
    rw [run, ht] at hrun
    cases hrun
  · intro hdiverges patience
    rw [run, loop_of_diverges (c := start d) hdiverges, Option.map_none]

theorem outcome_of_run (h : run patience d lines = some t) :
    ∃ n ≤ lines.length, ∃ t',
      Outcome d ((orders ['s'] lines).take n) ((orders ['s'] lines).drop n) t' ∧ t = t'.after [.printed banner] ∧
      (t.outOfLines = false → ∀ more, run patience d (lines.take n ++ more) = some t) := by
  obtain ⟨t', ht', rfl⟩ := Option.map_eq_some_iff.1 h
  obtain ⟨n, hn, houtcome, hmore⟩ := outcome_of_loop ht'
  refine ⟨n, hn, t', houtcome, rfl, fun hread more => ?_⟩
  rw [run, hmore hread more, Option.map_some]

end Console

/-- **A session at the console handles its orders one after another.** The orders are the lines, but a blank line stands
for the last one that was not blank, and for a step if there was none. The session ends before the first order that
finds the debugger halted, with the first order to quit, or when no line is left, and has no end only if an order that
it reads has no answer. It writes the state before each prompt, and once more if it ends because the debugger is halted;
it says last whether the machine is finished, which has no error then. The lines that it has not read do not matter. -/
theorem console_handles_orders_in_turn (code : Script) (config : Config) (input : List UInt8)
    (memoryRange programRange : Int) (p : Program) (hp : Program.parse code config.precomputeJumps = .ok p) :
    ∃ d₀, Debugger.start code config input memoryRange programRange = .ok d₀ ∧
      ∀ k d, Debugger.Reaches d₀ k d → ∀ lines,
        ((∀ patience, Console.run patience d lines = none) ↔ Console.Diverges d (Console.orders ['s'] lines)) ∧
        ∀ patience t, Console.run patience d lines = some t →
          (∃ n ≤ lines.length, ∃ t',
            Console.Outcome d ((Console.orders ['s'] lines).take n) ((Console.orders ['s'] lines).drop n) t' ∧
            t = t'.after [.printed Console.banner] ∧
            (t.outOfLines = false → ∀ more, Console.run patience d (lines.take n ++ more) = some t)) ∧
          (t.texts.getLast? = some (.printed "Execution finished.") ↔ t.debugger.machine.finished = true) ∧
          (t.debugger.machine.finished = true → t.debugger.failure = none) := by
  obtain ⟨m, d₀, hm, hstart, hall⟩ := Debugger.exists_start input memoryRange programRange hp
  refine ⟨d₀, hstart, fun k d hd lines => ⟨Console.run_eq_none_iff, fun patience t h => ?_⟩⟩
  obtain ⟨n, hn, t', houtcome, rfl, hmore⟩ := Console.outcome_of_run h
  obtain ⟨texts, htexts⟩ := houtcome.exists_texts
  obtain ⟨l, hl⟩ := houtcome.reaches hd
  refine ⟨⟨n, hn, t', houtcome, rfl, hmore⟩, ?_, fun hfin => (hall l _ hl).failure_of_finished hm hfin⟩
  have hlast : (t'.after [.printed Console.banner]).texts.getLast? = some (Console.lastText t'.debugger) := by
    rw [Console.Transcript.after, htexts, ← List.append_assoc, List.getLast?_concat]
  rw [hlast, Console.lastText]
  change _ ↔ t'.debugger.machine.finished = true
  cases t'.debugger.machine.finished <;> decide

/-- the blank line repeats the step, which finishes the program, and the order to quit is not read -/
theorem console_handles_orders_in_turn_repeated_step : ∃ (d₀ : Debugger) (t : Console.Transcript),
    Debugger.start (.text "+-") default [] 10 30 = .ok d₀ ∧
      Console.run 0 d₀ [" s ".toList, [], ['q']] = some t ∧
      (∃ n ≤ 3, ∃ t', Console.Outcome d₀ ([" s ".toList, ['s'], ['q']].take n) ([" s ".toList, ['s'], ['q']].drop n) t' ∧
        t = t'.after [.printed Console.banner]) ∧
      t.texts.getLast? = some (.printed "Execution finished.") ∧ t.debugger.failure = none := by
  obtain ⟨d₀, hstart, hall⟩ := console_handles_orders_in_turn (.text "+-") default [] 10 30 _ rfl
  have hfinished : (Debugger.start (.text "+-") default [] 10 30).toOption.bind (fun d =>
      (Console.run 0 d [" s ".toList, [], ['q']]).map fun t => t.debugger.machine.finished) = some true := by
    decide +kernel
  rw [hstart] at hfinished
  obtain ⟨t, ht, hfin⟩ := Option.map_eq_some_iff.1 hfinished
  obtain ⟨⟨n, hn, t', houtcome, hbanner, -⟩, hlast, hnone⟩ := (hall 0 d₀ .start [" s ".toList, [], ['q']]).2 0 t ht
  have horders : Console.orders ['s'] [" s ".toList, [], ['q']] = [" s ".toList, ['s'], ['q']] := by decide +kernel
  rw [horders] at houtcome
  exact ⟨d₀, t, hstart, ht, ⟨n, hn, t', houtcome, hbanner⟩, hlast.2 hfin, hnone hfin⟩

end Brainfuck
