/-
What the orders to a debugger change.

- `Order.Verb`: the words that an order can begin with, and what is read behind them. A line is read as its verb says,
  or it has none (`Order.exists_verb_or`), so each kind of order is known by the words of its line
  (`read_eq_quit_iff`, `read_eq_toggle_iff`, `read_eq_bad_iff`, ..).
- `Debugger.toggled`: the breakpoints are a set, and a toggle changes whether one number is in it
  (`mem_toggled_iff`). Every operation keeps the settings of a debugger or toggles one breakpoint (`settings_perform`),
  so the breakpoints stay in ascending order (`Reaches.ascending`).
- `Debugger.obey_eq_self`, `Debugger.goesOn_iff`, `Debugger.refused_mem_printed_iff`: what carrying out an order
  leaves alone, says and prints, whatever the state.
- `orders_change_no_more_than_they_say`: all of it, for the lines that a debugger of a program is given.
-/
import Brainfuck.Proofs.Resuming

namespace Brainfuck

namespace Order

/-! ## Verbs -/

/-- what the first word of a line asks for -/
inductive Verb where
  | step
  | resume
  | toggle
  | dump
  | help
  | quit
deriving DecidableEq, Repr

variable {line : List Char} {v v' : Verb}

namespace Verb

def names : Verb → List String
  | step => ["s", "step"]
  | resume => ["c", "continue"]
  | toggle => ["b", "break"]
  | dump => ["m", "mem"]
  | help => ["h", "?", "help"]
  | quit => ["q", "quit"]

/-- the order with these words behind the verb -/
def order (args : List (List Char)) : Verb → Order
  | step => withInt args[0]? (.step 1) .step
  | resume => .resume
  | toggle => withInt args[0]? .bad .toggle
  | dump =>
    withInt args[0]? (.dump none dumpCount) fun address =>
      withInt args[1]? (.dump (some address) dumpCount) fun count => .dump (some address) count
  | help => .help
  | quit => .quit

/-- the first word of the line is one of the verb's -/
def Opens (v : Verb) (line : List Char) : Prop := ∃ name ∈ v.names, (words line).head? = some name.toList

theorem eq_of_mem_names {name : String} (h : name ∈ v.names) (h' : name ∈ v'.names) : v = v' := by
  have hdisjoint : v = v' ∨ ∀ name ∈ v.names, name ∉ v'.names := by cases v <;> cases v' <;> decide
  exact hdisjoint.resolve_right fun hno => hno name h h'

/-- a line has one verb at most -/
theorem Opens.unique (h : v.Opens line) (h' : v'.Opens line) : v = v' := by
  obtain ⟨name, hname, hhead⟩ := h
  obtain ⟨name', hname', hhead'⟩ := h'
  have hchars : name.toList = name'.toList := Option.some.inj (hhead.symm.trans hhead')
  obtain rfl := String.toList_inj.1 hchars
  exact eq_of_mem_names hname hname'

end Verb

/-- the words behind the first, from 0 on -/
def argument? (line : List Char) (i : Nat) : Option (List Char) := (words line)[i + 1]?

theorem read_of_mem_names {name : String} {args : List (List Char)} (hwords : words line = name.toList :: args)
    (h : name ∈ v.names) : read line = v.order args := by
  simp only [read, hwords, String.ofList_toList]
  cases v <;> simp only [Verb.names, List.mem_cons, List.not_mem_nil, or_false] at h <;>
    rcases h with rfl | rfl | rfl <;> rfl

theorem read_of_notMem_names {word : List Char} {args : List (List Char)} (hwords : words line = word :: args)
    (h : ∀ v : Verb, String.ofList word ∉ v.names) : read line = unknown word := by
  simp only [read, hwords]
  have hstep := h .step
  have hresume := h .resume
  have htoggle := h .toggle
  have hdump := h .dump
  have hhelp := h .help
  have hquit := h .quit
  simp only [Verb.names, List.mem_cons, List.not_mem_nil, or_false, not_or] at *
  split <;> simp_all

/-- a line is read as its verb says, or it has no verb -/
theorem exists_verb_or (line : List Char) :
    (∃ v : Verb, v.Opens line ∧ ∃ args, (∀ i, argument? line i = args[i]?) ∧ read line = v.order args) ∨
      (∀ v : Verb, ¬ v.Opens line) ∧ (read line = nothing ∨ ∃ word, read line = unknown word) := by
  cases hwords : words line with
  | nil =>
    refine .inr ⟨?_, .inl ?_⟩
    · rintro v ⟨name, -, hhead⟩
      rw [hwords] at hhead
      cases hhead
    · simp only [read, hwords]
  | cons word args =>
    by_cases h : ∃ v : Verb, String.ofList word ∈ v.names
    · obtain ⟨v, hname⟩ := h
      have hchars : words line = (String.ofList word).toList :: args := by rw [hwords, String.toList_ofList]
      refine .inl ⟨v, ⟨_, hname, by rw [hchars, List.head?_cons]⟩, args, fun i => ?_, read_of_mem_names hchars hname⟩
      rw [argument?, hwords, List.getElem?_cons_succ]
    · rw [not_exists] at h
      refine .inr ⟨?_, .inr ⟨word, read_of_notMem_names hwords h⟩⟩
      rintro v ⟨name, hname, hhead⟩
      rw [hwords, List.head?_cons, Option.some.injEq] at hhead
      rw [hhead] at h
      exact h v (by rwa [String.ofList_toList])

/-! ## What a line says -/

/-- an argument is needed and missing, or it is no integer -/
inductive Malformed (line : List Char) : Prop where
  | noPlace : Verb.toggle.Opens line → argument? line 0 = none → Malformed line
  | first {v : Verb} {word : List Char} : v.Opens line → v ∈ [.step, .toggle, .dump] → argument? line 0 = some word →
      int? word = none → Malformed line
  | second {word : List Char} : Verb.dump.Opens line → argument? line 1 = some word → int? word = none → Malformed line

/-- the line asks to toggle the breakpoint at an integer -/
def Toggles (line : List Char) (ip : Int) : Prop :=
  Verb.toggle.Opens line ∧ ∃ word, argument? line 0 = some word ∧ int? word = some ip

/-- the verb that an order comes from, if its arguments were good -/
def verb? : Order → Option Verb
  | .step _ => some .step
  | .resume => some .resume
  | .toggle _ => some .toggle
  | .dump _ _ => some .dump
  | .help => some .help
  | .quit => some .quit
  | .nothing | .unknown _ | .bad => none

/-- an argument is missing, or is no integer, or is one -/
theorem withInt_cases (word : Option (List Char)) (fallback : Order) (order : Int → Order) :
    word = none ∧ withInt word fallback order = fallback ∨
      (∃ w, word = some w ∧ int? w = none ∧ withInt word fallback order = bad) ∨
      ∃ w n, word = some w ∧ int? w = some n ∧ withInt word fallback order = order n := by
  cases word with
  | none => exact .inl ⟨rfl, rfl⟩
  | some w =>
    cases hint : int? w with
    | none => exact .inr (.inl ⟨w, rfl, hint, by simp only [withInt, hint, Option.map_none, Option.getD_none]⟩)
    | some n => exact .inr (.inr ⟨w, n, rfl, hint, by simp only [withInt, hint, Option.map_some, Option.getD_some]⟩)

theorem withInt_of_not_int {w : List Char} (h : int? w = none) (fallback : Order) (order : Int → Order) :
    withInt (some w) fallback order = bad := by
  simp only [withInt, h, Option.map_none, Option.getD_none]

theorem withInt_of_int {w : List Char} {n : Int} (h : int? w = some n) (fallback : Order) (order : Int → Order) :
    withInt (some w) fallback order = order n := by
  simp only [withInt, h, Option.map_some, Option.getD_some]

/-- what a verb makes of the words behind it -/
inductive Verb.Gives (args : List (List Char)) : Verb → Order → Prop where
  | stepOnce : args[0]? = none → Gives args .step (.step 1)
  | step {word : List Char} {count : Int} : args[0]? = some word → int? word = some count → Gives args .step (.step count)
  | resume : Gives args .resume .resume
  | toggle {word : List Char} {ip : Int} : args[0]? = some word → int? word = some ip → Gives args .toggle (.toggle ip)
  | dump (address : Option Int) (count : Int) : Gives args .dump (.dump address count)
  | help : Gives args .help .help
  | quit : Gives args .quit .quit
  | noPlace : args[0]? = none → Gives args .toggle .bad
  | first {v : Verb} {word : List Char} : v ∈ [.step, .toggle, .dump] → args[0]? = some word → int? word = none →
      Gives args v .bad
  | second {word : List Char} : args[1]? = some word → int? word = none → Gives args .dump .bad

theorem Verb.gives_order (v : Verb) (args : List (List Char)) : v.Gives args (v.order args) := by
  cases v with
  | step =>
    rcases withInt_cases args[0]? (.step 1) .step with ⟨hnone, h⟩ | ⟨w, hw, hint, h⟩ | ⟨w, n, hw, hint, h⟩
    · rw [order, h]
      exact .stepOnce hnone
    · rw [order, h]
      exact .first (by decide) hw hint
    · rw [order, h]
      exact .step hw hint
  | toggle =>
    rcases withInt_cases args[0]? .bad .toggle with ⟨hnone, h⟩ | ⟨w, hw, hint, h⟩ | ⟨w, n, hw, hint, h⟩
    · rw [order, h]
      exact .noPlace hnone
    · rw [order, h]
      exact .first (by decide) hw hint
    · rw [order, h]
      exact .toggle hw hint
  | dump =>
    rcases withInt_cases args[0]? (.dump none dumpCount) fun address =>
        withInt args[1]? (.dump (some address) dumpCount) fun count => .dump (some address) count
      with ⟨-, h⟩ | ⟨w, hw, hint, h⟩ | ⟨_, address, -, -, h⟩
    · rw [order, h]
      exact .dump none dumpCount
    · rw [order, h]
      exact .first (by decide) hw hint
    · rw [order, h]
      rcases withInt_cases args[1]? (.dump (some address) dumpCount) fun count => .dump (some address) count
        with ⟨-, h'⟩ | ⟨w, hw, hint, h'⟩ | ⟨_, n, -, -, h'⟩
      · rw [h']
        exact .dump (some address) dumpCount
      · rw [h']
        exact .second hw hint
      · rw [h']
        exact .dump (some address) n
  | resume => exact .resume
  | help => exact .help
  | quit => exact .quit

/-- a verb gives an order of its own, or a bad one -/
theorem Verb.Gives.verb? {args : List (List Char)} {order : Order} (h : v.Gives args order) :
    order.verb? = some v ∨ order = .bad := by
  cases h with
  | noPlace | first | second => exact .inr rfl
  | _ => exact .inl rfl

theorem opens_of_verb? (h : (read line).verb? = some v) : v.Opens line := by
  rcases exists_verb_or line with ⟨v', hopens, args, -, hread⟩ | ⟨-, hread | ⟨word, hread⟩⟩
  · rw [hread] at h
    rcases (v'.gives_order args).verb? with hverb | hbad
    · obtain rfl := Option.some.inj (hverb.symm.trans h)
      exact hopens
    · rw [hbad] at h
      cases h
  · rw [hread] at h
    cases h
  · rw [hread] at h
    cases h

theorem Verb.Opens.read_eq (h : v.Opens line) :
    ∃ args, (∀ i, argument? line i = args[i]?) ∧ read line = v.order args := by
  rcases exists_verb_or line with ⟨v', h', args, hargs, hread⟩ | ⟨hno, -⟩
  · obtain rfl := h.unique h'
    exact ⟨args, hargs, hread⟩
  · exact absurd h (hno v)

theorem read_eq_quit_iff : read line = .quit ↔ Verb.quit.Opens line := by
  constructor
  · intro h
    exact opens_of_verb? (by rw [h]; rfl)
  · intro h
    obtain ⟨args, -, hread⟩ := h.read_eq
    exact hread

theorem read_eq_resume_iff : read line = .resume ↔ Verb.resume.Opens line := by
  constructor
  · intro h
    exact opens_of_verb? (by rw [h]; rfl)
  · intro h
    obtain ⟨args, -, hread⟩ := h.read_eq
    exact hread

theorem read_eq_toggle_iff {ip : Int} : read line = .toggle ip ↔ Toggles line ip := by
  constructor
  · intro h
    have hopens : Verb.toggle.Opens line := opens_of_verb? (by rw [h]; rfl)
    obtain ⟨args, hargs, hread⟩ := hopens.read_eq
    have hgives := Verb.toggle.gives_order args
    rw [← hread, h] at hgives
    cases hgives with
    | @toggle word ip hword hint => exact ⟨hopens, word, (hargs 0).trans hword, hint⟩
  · rintro ⟨hopens, word, hword, hint⟩
    obtain ⟨args, hargs, hread⟩ := hopens.read_eq
    rw [hread, Verb.order, ← hargs, hword, withInt_of_int hint]

theorem malformed_of_read (h : read line = .bad) : Malformed line := by
  rcases exists_verb_or line with ⟨v, hopens, args, hargs, hread⟩ | ⟨-, hread | ⟨word, hread⟩⟩
  · have hgives := v.gives_order args
    rw [← hread, h] at hgives
    cases hgives with
    | noPlace hnone => exact .noPlace hopens ((hargs 0).trans hnone)
    | first hv hword hint => exact .first hopens hv ((hargs 0).trans hword) hint
    | second hword hint => exact .second hopens ((hargs 1).trans hword) hint
  · cases hread.symm.trans h
  · cases hread.symm.trans h

theorem read_of_malformed (h : Malformed line) : read line = .bad := by
  cases h with
  | noPlace hopens hnone =>
    obtain ⟨args, hargs, hread⟩ := hopens.read_eq
    rw [hread, Verb.order, ← hargs, hnone]
    rfl
  | @first v word hopens hv hword hint =>
    obtain ⟨args, hargs, hread⟩ := hopens.read_eq
    cases v with
    | step | toggle | dump => rw [hread, Verb.order, ← hargs, hword, withInt_of_not_int hint]
    | resume | help | quit => exact absurd hv (by decide)
  | second hopens hword hint =>
    obtain ⟨args, hargs, hread⟩ := hopens.read_eq
    rw [hread, Verb.order, ← hargs 1, hword]
    rcases withInt_cases args[0]? (.dump none dumpCount) fun address =>
      withInt (some _) (.dump (some address) dumpCount) fun count => .dump (some address) count
      with ⟨hnone, -⟩ | ⟨_, -, -, hbad⟩ | ⟨_, address, -, -, hrest⟩
    · -- the second argument is there, and so is the first
      have hshort : args = [] := by cases args with
        | nil => rfl
        | cons _ _ => cases hnone
      rw [hargs 1, hshort] at hword
      cases hword
    · exact hbad
    · rw [hrest, withInt_of_not_int hint]

theorem read_eq_bad_iff : read line = .bad ↔ Malformed line := ⟨malformed_of_read, read_of_malformed⟩

end Order

namespace Debugger

variable {d d' : Debugger} {order : Order} {patience : Nat} {r : Reply} {l : List Int} {i j : Int}

/-! ## Breakpoints -/

theorem mem_toggled_iff (hl : l.Pairwise (· < ·)) : j ∈ toggled i l ↔ (j ∈ l ↔ j ≠ i) := by
  induction l with
  | nil => simp [toggled]
  | cons k rest ih =>
    obtain ⟨hlt, hrest⟩ := List.pairwise_cons.1 hl
    rcases lt_trichotomy i k with hik | rfl | hki
    · -- the number is before the first one, so it is not in the list
      have hnot : i ∉ k :: rest := by
        intro hmem
        rcases List.mem_cons.1 hmem with rfl | hmem
        · exact absurd hik (lt_irrefl i)
        · exact absurd (hlt i hmem) (not_lt.2 hik.le)
      rw [toggled, if_neg hik.ne, if_pos hik, List.mem_cons]
      by_cases hj : j = i
      · subst hj
        simp [hnot]
      · simp [hj]
    · have hnot : i ∉ rest := fun hmem => lt_irrefl i (hlt i hmem)
      rw [toggled, if_pos rfl, List.mem_cons]
      by_cases hj : j = i
      · subst hj
        simp [hnot]
      · simp [hj]
    · rw [toggled, if_neg hki.ne', if_neg (not_lt.2 hki.le), List.mem_cons, List.mem_cons, ih hrest]
      by_cases hj : j = k
      · subst hj
        simp [hki.ne]
      · simp [hj]

theorem pairwise_toggled (i : Int) (hl : l.Pairwise (· < ·)) : (toggled i l).Pairwise (· < ·) := by
  induction l with
  | nil => exact List.pairwise_singleton _ i
  | cons k rest ih =>
    obtain ⟨hlt, hrest⟩ := List.pairwise_cons.1 hl
    rcases lt_trichotomy i k with hik | rfl | hki
    · rw [toggled, if_neg hik.ne, if_pos hik]
      refine List.pairwise_cons.2 ⟨fun j hj => ?_, hl⟩
      rcases List.mem_cons.1 hj with rfl | hj
      · exact hik
      · exact hik.trans (hlt j hj)
    · rw [toggled, if_pos rfl]
      exact hrest
    · rw [toggled, if_neg hki.ne', if_neg (not_lt.2 hki.le)]
      refine List.pairwise_cons.2 ⟨fun j hj => ?_, ih hrest⟩
      by_cases hji : j = i
      · exact hji ▸ hki
      · exact hlt j (((mem_toggled_iff hrest).1 hj).2 hji)

/-- the debuggers differ at most in the machine and in what stopped it -/
structure SameSettings (d d' : Debugger) : Prop where
  breakpoints : d'.breakpoints = d.breakpoints
  memoryRange : d'.memoryRange = d.memoryRange
  programRange : d'.programRange = d.programRange

theorem SameSettings.refl (d : Debugger) : d.SameSettings d := ⟨rfl, rfl, rfl⟩

theorem SameSettings.trans {d₁ d₂ d₃ : Debugger} (h : d₁.SameSettings d₂) (h' : d₂.SameSettings d₃) :
    d₁.SameSettings d₃ :=
  ⟨h'.breakpoints.trans h.breakpoints, h'.memoryRange.trans h.memoryRange, h'.programRange.trans h.programRange⟩

/-- a debugger starts without breakpoints, and with the ranges that it is given -/
theorem settings_of_start {code : Script} {config : Config} {input : List UInt8} {memoryRange programRange : Int}
    (h : start code config input memoryRange programRange = .ok d) :
    d.breakpoints = [] ∧ d.memoryRange = memoryRange ∧ d.programRange = programRange := by
  have hstart : Except.map (fun m => (⟨m, [], none, memoryRange, programRange⟩ : Debugger))
      ((session config input).prepare (.script code)) = .ok d := h
  cases hm : (session config input).prepare (.script code) with
  | error e =>
    rw [hm] at hstart
    cases hstart
  | ok m =>
    rw [hm] at hstart
    cases hstart
    exact ⟨rfl, rfl, rfl⟩

theorem sameSettings_stepFrom (d : Debugger) (done count : Nat) : d.SameSettings (d.stepFrom done count).2 := by
  induction count generalizing d done with
  | zero => exact .refl d
  | succ count ih =>
    cases hgo : d.halted with
    | true =>
      rw [stepFrom_of_halted hgo]
      exact .refl d
    | false =>
      cases hstep : d.machine.step.1 with
      | none =>
        rw [stepFrom_succ_of_none hgo hstep]
        have hahead : d.SameSettings (d.ahead 1) := ⟨rfl, rfl, rfl⟩
        exact hahead.trans (ih (d.ahead 1) (done + 1))
      | some s =>
        rw [stepFrom_succ_of_some hgo hstep]
        exact ⟨rfl, rfl, rfl⟩

theorem sameSettings_step (d : Debugger) (count : Int) : d.SameSettings (d.step count).2 :=
  d.sameSettings_stepFrom 0 count.toNat

theorem sameSettings_resumeFrom {done n : Nat} (h : d.resumeFrom done patience = some (n, d')) : d.SameSettings d' := by
  induction patience generalizing d done with
  | zero => cases h
  | succ patience ih =>
    unfold resumeFrom at h
    split at h
    · cases h
      exact .refl _
    · exact (d.sameSettings_step 1).trans (ih h)

theorem sameSettings_resume {n : Nat} (h : d.resume patience = some (n, d')) : d.SameSettings d' :=
  (d.sameSettings_step 1).trans (sameSettings_resumeFrom h)

/-! ## Carrying out an order -/

theorem obey_eq_none_iff : d.obey patience order = none ↔ order = .resume ∧ d.resume patience = none := by
  cases order <;> simp [obey]

theorem goesOn_iff (h : d.obey patience order = some r) : r.goesOn = false ↔ order = .quit := by
  cases order with
  | resume =>
    obtain ⟨_, -, rfl⟩ := Option.map_eq_some_iff.1 h
    simp
  | _ =>
    cases h
    simp

/-- every order but three leaves the debugger as it is -/
theorem obey_eq_self (h : d.obey patience order = some r) (hstep : ∀ count, order ≠ .step count)
    (hresume : order ≠ .resume) (htoggle : ∀ ip, order ≠ .toggle ip) : r.debugger = d := by
  cases order with
  | step count => exact absurd rfl (hstep count)
  | resume => exact absurd rfl hresume
  | toggle ip => exact absurd rfl (htoggle ip)
  | _ =>
    cases h
    rfl

theorem sameSettings_obey (h : d.obey patience order = some r) (htoggle : ∀ ip, order ≠ .toggle ip) :
    d.SameSettings r.debugger := by
  cases order with
  | step count =>
    cases h
    exact d.sameSettings_step count
  | resume =>
    obtain ⟨⟨n, d'⟩, hresume, rfl⟩ := Option.map_eq_some_iff.1 h
    exact sameSettings_resume hresume
  | toggle ip => exact absurd rfl (htoggle ip)
  | _ =>
    cases h
    exact .refl d

theorem obey_toggle (h : d.obey patience (.toggle i) = some r) :
    r.debugger = { d with breakpoints := toggled i d.breakpoints } := by
  cases h
  rfl

/-- an operation keeps the settings, or it toggles one breakpoint -/
theorem settings_perform {op : Operation} {n : Nat} (h : d.perform patience op = some (n, d')) :
    d.SameSettings d' ∨ ∃ ip, d' = { d with breakpoints := toggled ip d.breakpoints } := by
  cases op with
  | step count =>
    have hstep : d.step count = (n, d') := Option.some.inj h
    have hsame := d.sameSettings_step count
    rw [hstep] at hsame
    exact .inl hsame
  | resume => exact .inl (sameSettings_resume h)
  | toggle ip =>
    cases h
    exact .inr ⟨ip, rfl⟩
  | handle line =>
    obtain ⟨r, hr, heq⟩ := Option.map_eq_some_iff.1 h
    cases heq
    by_cases htoggle : ∃ ip, Order.read line = .toggle ip
    · obtain ⟨ip, hread⟩ := htoggle
      rw [handle, hread] at hr
      exact .inr ⟨ip, obey_toggle hr⟩
    · exact .inl (sameSettings_obey hr (not_exists.1 htoggle))
  | look =>
    cases h
    exact .inl (.refl d)

theorem Reaches.ascending {d₀ : Debugger} {k : Nat} (h₀ : d₀.breakpoints.Pairwise (· < ·)) (h : Reaches d₀ k d) :
    d.breakpoints.Pairwise (· < ·) := by
  induction h with
  | start => exact h₀
  | perform _ _ _ hd ih =>
    rcases settings_perform hd with hsame | ⟨ip, rfl⟩
    · rwa [hsame.breakpoints]
    · exact pairwise_toggled ip ih

/-- nothing changes the widths of the windows -/
theorem Reaches.ranges {d₀ : Debugger} {k : Nat} (h : Reaches d₀ k d) :
    d.memoryRange = d₀.memoryRange ∧ d.programRange = d₀.programRange := by
  induction h with
  | start => exact ⟨rfl, rfl⟩
  | perform _ _ _ hd ih =>
    obtain ⟨hmemory, hprogram⟩ := ih
    rcases settings_perform hd with hsame | ⟨ip, rfl⟩
    · exact ⟨hsame.memoryRange.trans hmemory, hsame.programRange.trans hprogram⟩
    · exact ⟨hmemory, hprogram⟩

/-! ## What is printed -/

theorem refused_ne_append {p t : String} (h : ¬ p.toList <+: "Bad arguments (h for help)".toList) :
    "Bad arguments (h for help)" ≠ p ++ t := by
  intro heq
  refine h ⟨t.toList, ?_⟩
  rw [heq, String.toList_append]

theorem exists_intercalate (s first : String) (rest : List String) : ∃ t, s.intercalate (first :: rest) = first ++ t := by
  cases rest with
  | nil => exact ⟨"", by rw [String.intercalate_singleton, String.append_empty]⟩
  | cons next rest => exact ⟨_, by rw [String.intercalate_cons_cons, String.append_assoc]⟩

/-- the lines of a dump open with a bracket -/
theorem refused_ne_dump (d : Debugger) (address count : Int) :
    "Bad arguments (h for help)" ≠ "\n".intercalate (d.dump address count) := by
  cases hlines : d.dump address count with
  | nil => decide
  | cons line rest =>
    have hmem : line ∈ d.dump address count := hlines ▸ List.mem_cons_self
    obtain ⟨i, -, rfl⟩ := List.mem_map.1 hmem
    obtain ⟨t, ht⟩ := exists_intercalate "\n" s!"[{fiveWide i}]: {(d.machine.tape.read i).toNat}" rest
    rw [ht]
    simp only [String.append_assoc]
    exact refused_ne_append (by decide)

theorem refused_mem_printed_iff (h : d.obey patience order = some r) :
    "Bad arguments (h for help)" ∈ r.printed ↔ order = .bad := by
  cases order with
  | nothing | step | quit =>
    cases h
    simp
  | resume =>
    obtain ⟨⟨n, d'⟩, -, rfl⟩ := Option.map_eq_some_iff.1 h
    refine iff_of_false (fun hmem => ?_) (by simp)
    dsimp only at hmem
    split at hmem
    · exact refused_ne_append (by decide) (List.mem_singleton.1 hmem)
    · cases hmem
  | toggle ip =>
    cases h
    refine iff_of_false (fun hmem => ?_) (by simp)
    have heq := List.mem_singleton.1 hmem
    simp only [String.append_assoc] at heq
    exact refused_ne_append (by decide) heq
  | dump address count =>
    cases h
    exact iff_of_false (fun hmem => d.refused_ne_dump _ _ (List.mem_singleton.1 hmem)) (by simp)
  | help =>
    cases h
    refine iff_of_false (fun hmem => ?_) (by simp)
    exact absurd (List.mem_singleton.1 hmem) (by decide)
  | unknown word =>
    cases h
    refine iff_of_false (fun hmem => ?_) (by simp)
    have heq := List.mem_singleton.1 hmem
    simp only [String.append_assoc] at heq
    exact refused_ne_append (by decide) heq
  | bad =>
    cases h
    simp

/-- a dump reads no cell off the tape -/
theorem exists_dump (d : Debugger) (address count : Int) :
    ∃ cells : List Nat, (∀ i ∈ cells, d.machine.tape.get? i = .ok (d.machine.tape.read i)) ∧
      d.dump address count = cells.map fun i => s!"[{fiveWide i}]: {(d.machine.tape.read i).toNat}" := by
  refine ⟨_, fun i hi => Tape.get?_of_lt ?_, rfl⟩
  obtain ⟨-, hlt⟩ := (mem_between (Int.le_max_left 0 address)).1 hi
  exact Int.ofNat_lt.1 (lt_of_lt_of_le hlt (min_le_left _ _))

/-! ## Replies -/

/-- what a reply to a line says, and what it leaves alone -/
structure Answers (d : Debugger) (line : List Char) (r : Reply) : Prop where
  /-- only quitting ends the session -/
  goesOn : r.goesOn = false ↔ Order.Verb.quit.Opens line
  /-- only steps touch the machine, and what stopped it -/
  machine : ¬ Order.Verb.step.Opens line → ¬ Order.Verb.resume.Opens line →
    r.debugger.machine = d.machine ∧ r.debugger.failure = d.failure
  /-- nothing but an error of the machine stops it -/
  failure : ∀ s, r.debugger.failure = some s → ∃ e, s = .error e
  /-- one breakpoint is toggled, and nothing else -/
  toggled : ∀ ip, Order.Toggles line ip → r.debugger = { d with breakpoints := Debugger.toggled ip d.breakpoints } ∧
    ∀ j, j ∈ r.debugger.breakpoints ↔ (j ∈ d.breakpoints ↔ j ≠ ip)
  settings : (∀ ip, ¬ Order.Toggles line ip) → d.SameSettings r.debugger
  unchanged : ¬ Order.Verb.step.Opens line → ¬ Order.Verb.resume.Opens line → (∀ ip, ¬ Order.Toggles line ip) →
    r.debugger = d
  refused : "Bad arguments (h for help)" ∈ r.printed ↔ Order.Malformed line
  refused_unchanged : Order.Malformed line → r.debugger = d

variable {line : List Char} {code : Script} {config : Config} {input : List UInt8} {m : Machine Source Sink} {k : Nat}

theorem answers_handle (hm : (session config input).prepare (.script code) = .ok m) (hd : Tracks m k d)
    (hbreakpoints : d.breakpoints.Pairwise (· < ·)) (h : d.handle patience line = some r) : d.Answers line r := by
  have hstep : ¬ Order.Verb.step.Opens line → ∀ count, Order.read line ≠ .step count := by
    intro hno count hread
    exact hno (Order.opens_of_verb? (by rw [hread]; rfl))
  have hresume : ¬ Order.Verb.resume.Opens line → Order.read line ≠ .resume := mt Order.read_eq_resume_iff.1
  have htoggle : (∀ ip, ¬ Order.Toggles line ip) → ∀ ip, Order.read line ≠ .toggle ip :=
    fun hno ip => mt Order.read_eq_toggle_iff.1 (hno ip)
  have htoggled : ∀ ip, Order.Toggles line ip →
      r.debugger = { d with breakpoints := Debugger.toggled ip d.breakpoints } := by
    intro ip htoggles
    rw [handle, Order.read_eq_toggle_iff.2 htoggles] at h
    exact obey_toggle h
  constructor
  case goesOn => exact (goesOn_iff h).trans Order.read_eq_quit_iff
  case machine =>
    intro hnostep hnoresume
    by_cases htoggles : ∃ ip, Order.Toggles line ip
    · obtain ⟨ip, htoggles⟩ := htoggles
      rw [htoggled ip htoggles]
      exact ⟨rfl, rfl⟩
    · rw [not_exists] at htoggles
      rw [obey_eq_self h (hstep hnostep) (hresume hnoresume) (htoggle htoggles)]
      exact ⟨rfl, rfl⟩
  case failure =>
    intro s hs
    exact (hd.obey h).exists_error hm hs
  case toggled =>
    intro ip htoggles
    refine ⟨htoggled ip htoggles, fun j => ?_⟩
    rw [htoggled ip htoggles]
    exact mem_toggled_iff hbreakpoints
  case settings =>
    intro hno
    exact sameSettings_obey h (htoggle hno)
  case unchanged =>
    intro hnostep hnoresume hno
    exact obey_eq_self h (hstep hnostep) (hresume hnoresume) (htoggle hno)
  case refused => exact (refused_mem_printed_iff h).trans Order.read_eq_bad_iff
  case refused_unchanged =>
    intro hbad
    rw [handle, Order.read_eq_bad_iff.2 hbad] at h
    cases h
    rfl

end Debugger

/-- **An order changes no more than it says.** In every state that operations lead to, and for every line, the debugger
answers, but for an order to continue that meets neither a breakpoint nor an end. The answer ends the session only if
the line quits. The machine and what stopped it, which is an error of the machine, are touched by steps and by
continuing alone, and the breakpoints by an order to toggle one, which changes whether that one is set. Everything else
leaves the debugger as it is, and so does a line whose arguments are refused, which are those that are missing or are no
integers. Whatever cells are asked for, none off the tape is read. -/
theorem orders_change_no_more_than_they_say (code : Script) (config : Config) (input : List UInt8)
    (memoryRange programRange : Int) (p : Program) (hp : Program.parse code config.precomputeJumps = .ok p) :
    ∃ d₀, Debugger.start code config input memoryRange programRange = .ok d₀ ∧
      ∀ k d, Debugger.Reaches d₀ k d →
        (∀ line,
          ((∀ patience, d.handle patience line = none) ↔
            Order.Verb.resume.Opens line ∧ d.remaining = ⊤ ∧ ∀ j, 1 ≤ j → ¬ d.Meets j) ∧
          ∀ patience r, d.handle patience line = some r → d.Answers line r) ∧
        ∀ address count, ∃ cells : List Nat,
          (∀ i ∈ cells, d.machine.tape.get? i = .ok (d.machine.tape.read i)) ∧
          d.dump address count =
            cells.map fun i => s!"[{Debugger.fiveWide i}]: {(d.machine.tape.read i).toNat}" := by
  obtain ⟨m, d₀, hm, hstart, hall⟩ := Debugger.exists_start input memoryRange programRange hp
  have hnone : d₀.breakpoints = [] := (Debugger.settings_of_start hstart).1
  refine ⟨d₀, hstart, fun k d hd => ⟨fun line => ⟨?_, fun patience r h => ?_⟩, d.exists_dump⟩⟩
  · rw [← Debugger.resume_eq_none_iff, ← Order.read_eq_resume_iff]
    simp only [Debugger.handle, Debugger.obey_eq_none_iff]
    exact ⟨fun h => ⟨(h 0).1, fun patience => (h patience).2⟩, fun h patience => ⟨h.1, h.2 patience⟩⟩
  · have hascending : d.breakpoints.Pairwise (· < ·) := hd.ascending (hnone ▸ List.Pairwise.nil)
    exact Debugger.answers_handle hm (hall k d hd) hascending h

/-- a breakpoint is set, and then cells are asked for with a count that is no integer -/
theorem orders_change_no_more_than_they_say_toggle_then_refused : ∃ (d₀ : Debugger) (r r' : Reply),
    Debugger.start (.text "+[-]") default [] 10 30 = .ok d₀ ∧ d₀.handle 0 "b 3".toList = some r ∧
      3 ∈ r.debugger.breakpoints ∧ r.debugger.handle 0 "m -5 x".toList = some r' ∧
      "Bad arguments (h for help)" ∈ r'.printed ∧ r'.debugger = r.debugger := by
  obtain ⟨d₀, hstart, hall⟩ := orders_change_no_more_than_they_say (.text "+[-]") default [] 10 30 _ rfl
  have htoggle : Order.read "b 3".toList = .toggle 3 := by decide +kernel
  have hbad : Order.read "m -5 x".toList = .bad := by decide +kernel
  obtain ⟨r, hr⟩ : ∃ r, d₀.handle 0 "b 3".toList = some r := ⟨_, by rw [Debugger.handle, htoggle]; rfl⟩
  obtain ⟨r', hr'⟩ : ∃ r', r.debugger.handle 0 "m -5 x".toList = some r' := ⟨_, by rw [Debugger.handle, hbad]; rfl⟩
  have hreaches : Debugger.Reaches d₀ (0 + _) r.debugger :=
    Debugger.Reaches.start.perform 0 (.handle "b 3".toList) (by rw [Debugger.perform, hr]; rfl)
  obtain ⟨-, htoggled⟩ := (((hall 0 d₀ .start).1 "b 3".toList).2 0 r hr).toggled 3 (Order.read_eq_toggle_iff.1 htoggle)
  have hrefused := ((hall _ _ hreaches).1 "m -5 x".toList).2 0 r' hr'
  have hmalformed := Order.read_eq_bad_iff.1 hbad
  have hnone : d₀.breakpoints = [] := (Debugger.settings_of_start hstart).1
  exact ⟨d₀, r, r', hstart, hr, (htoggled 3).2 (by simp [hnone]), hr', hrefused.refused.2 hmalformed,
    hrefused.refused_unchanged hmalformed⟩

end Brainfuck
