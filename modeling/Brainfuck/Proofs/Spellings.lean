/-
The spellings of the variables of an environment.

- `Padded p core cs`: the characters with others around them that satisfy `p`. `trim_of_padded`: these are dropped.
- `Numeral.Spells n cs`: characters that spell a number in decimal. `Numeral.digits_append`: the digits end where the
  blanks begin. `Numeral.read_of_spells`: the number is read back.
- `SpellsWord words cs`: one of the words in any letter case, with blanks around it. `readBool_of_spells`,
  `EofPolicy.read_of_spells`: truth values and policies are read back.
- `Variable.Writes c v text?`: the text of a variable, or none, spells the value that its option has in `c`.
- `environment_decodes`: an environment that spells the options of `c` gives them over any base, and takes the options
  without a variable from the base.
-/
import Brainfuck.Proofs.Overlays

namespace Brainfuck

/-! ## Blanks around a text -/

/-- the characters with others around them that satisfy `p` -/
inductive Padded (p : Char → Bool) (core : List Char) : List Char → Prop where
  | around {before after : List Char} (hbefore : ∀ c ∈ before, p c = true) (hafter : ∀ c ∈ after, p c = true) :
      Padded p core (before ++ (core ++ after))

section Padded

variable {p : Char → Bool} {core cs : List Char}

/-- what is dropped ends where the rest begins -/
theorem dropWhile_append {before rest : List Char} (hbefore : ∀ c ∈ before, p c = true)
    (hrest : ∀ c ∈ rest.head?, p c = false) : (before ++ rest).dropWhile p = rest := by
  rw [List.dropWhile_append_of_pos hbefore]
  cases rest with
  | nil => rfl
  | cons c rest => exact List.dropWhile_cons_of_neg (Bool.eq_false_iff.1 (hrest c rfl))

/-- what is around the characters is dropped, as far as it is before them or after them -/
theorem trim_of_padded (hcore : ∀ c ∈ core, p c = false) (h : Padded p core cs) : trim p cs = core := by
  obtain ⟨hbefore, hafter⟩ := h
  rename_i before after
  cases core with
  | nil =>
    have hall : ∀ c ∈ before ++ after, p c = true := fun c hc => (List.mem_append.1 hc).elim (hbefore c) (hafter c)
    have hnone : (before ++ after ++ []).dropWhile p = [] := dropWhile_append hall (by simp)
    rw [List.append_nil] at hnone
    rw [trim, List.nil_append, hnone]
    rfl
  | cons c core =>
    have hfront : (before ++ (c :: core ++ after)).dropWhile p = c :: core ++ after := by
      refine dropWhile_append hbefore fun d hd => ?_
      obtain rfl : c = d := Option.some.inj hd
      exact hcore c List.mem_cons_self
    have hback : (after.reverse ++ (c :: core).reverse).dropWhile p = (c :: core).reverse := by
      refine dropWhile_append (fun d hd => hafter d (List.mem_reverse.1 hd)) fun d hd => ?_
      exact hcore d (List.mem_reverse.1 (List.mem_of_mem_head? hd))
    rw [trim, hfront, List.reverse_append, hback, List.reverse_reverse]

end Padded

/-! ## Numbers -/

namespace Numeral

/-- the characters spell the number in decimal: ASCII digits, at most as many as are read, with a plus before them or
none, and blanks around, the six of ASCII or others -/
inductive Spells (n : Nat) (cs : List Char) : Prop where
  | decimal {plus ds : List Char} (hplus : plus = [] ∨ plus = ['+']) (hne : ds ≠ []) (hlimit : ds.length ≤ digitLimit)
      (hdigits : ∀ c ∈ ds, c.isDigit = true) (hvalue : Nat.ofDigitChars 10 ds 0 = n)
      (hpadded : Padded isOuterBlank (plus ++ ds) cs) : Spells n cs

/-- the rows of digits lie between the blanks -/
theorem zeros_between_blanks : ∀ z ∈ digitZeros, (33 ≤ z ∧ z + 10 ≤ 0x85) ∨ (0xA1 ≤ z ∧ z + 10 ≤ 0x1680) ∨
    (0x1681 ≤ z ∧ z + 10 ≤ 0x2000) ∨ 0x3001 ≤ z := by
  decide

theorem digit?_of_isBlank {c : Char} (h : isBlank c = true) : digit? c = none := by
  rw [digit?, Option.map_eq_none_iff, List.find?_eq_none]
  intro z hz hrow
  have hbetween := zeros_between_blanks z hz
  simp only [isBlank, Bool.or_eq_true, Bool.and_eq_true, decide_eq_true_eq, beq_iff_eq] at h hrow
  omega

theorem digitIn?_of_digit? {c : Char} {d : Nat} (h : digit? c = some d) : digitIn? 10 c = some d := by
  have hlt := digit?_lt h
  simp [digitIn?, h, hlt]

/-- a letter is no decimal digit -/
theorem digitIn?_of_none {c : Char} (h : digit? c = none) : digitIn? 10 c = none := by
  simp only [digitIn?, h, Option.none_or]
  split
  · simp
  · rfl

theorem isBlank_of_isOuterBlank {c : Char} (h : isOuterBlank c = true) : isBlank c = true := by
  rw [isOuterBlank, Bool.and_eq_true] at h
  exact h.1

theorem isOuterBlank_of_isDigit {c : Char} (h : c.isDigit = true) : isOuterBlank c = false := by
  by_contra hblank
  have hnone := digit?_of_isBlank (isBlank_of_isOuterBlank (Bool.not_eq_false _ ▸ hblank))
  rw [digit?_ascii h] at hnone
  cases hnone

theorem digits_cons {base d : Nat} {c : Char} {cs : List Char} (hd : digitIn? base c = some d)
    (hcs : cs.head? ≠ some '_') : digits base (c :: cs) = (digits base cs).map fun (ds, rest) => (d :: ds, rest) := by
  rw [digits, hd]
  cases cs with
  | nil => rfl
  | cons c' cs =>
    have hunderscore : c' ≠ '_' := fun h => hcs (congrArg some h)
    simp only
    split
    · rename_i h
      exact absurd (List.cons.inj h).1 hunderscore
    · rfl

/-- the digits end where the blanks begin -/
theorem digits_append {ds after : List Char} (hds : ∀ c ∈ ds, c.isDigit = true)
    (hafter : ∀ c ∈ after, isOuterBlank c = true) :
    digits 10 (ds ++ after) = some (ds.map fun c => c.toNat - 48, after) := by
  induction ds with
  | nil =>
    cases after with
    | nil => rfl
    | cons c after =>
      have hblank := isBlank_of_isOuterBlank (hafter c List.mem_cons_self)
      rw [List.nil_append, digits, digitIn?_of_none (digit?_of_isBlank hblank)]
      rfl
  | cons c ds ih =>
    obtain ⟨hc, hds⟩ := List.forall_mem_cons.1 hds
    -- an underscore is neither a digit nor a blank
    have hhead : (ds ++ after).head? ≠ some '_' := by
      intro h
      rcases List.mem_append.1 (List.mem_of_mem_head? h) with h | h
      · exact absurd (hds _ h) (by decide)
      · exact absurd (hafter _ h) (by decide)
    rw [List.cons_append, digits_cons (digitIn?_of_digit? (digit?_ascii hc)) hhead, ih hds]
    rfl

theorem sign_append {plus ds rest : List Char} (hplus : plus = [] ∨ plus = ['+']) (hne : ds ≠ [])
    (hds : ∀ c ∈ ds, c.isDigit = true) : sign (plus ++ (ds ++ rest)) = (false, ds ++ rest) := by
  obtain ⟨d, ds, rfl⟩ := List.exists_cons_of_ne_nil hne
  have hd := hds d List.mem_cons_self
  rcases hplus with rfl | rfl
  · rw [List.nil_append, List.cons_append]
    unfold sign
    split
    · rename_i h
      obtain ⟨rfl, -⟩ := List.cons.inj h
      exact absurd hd (by decide)
    · rename_i h
      obtain ⟨rfl, -⟩ := List.cons.inj h
      exact absurd hd (by decide)
    · rfl
  · rfl

theorem afterMark_ten (cs : List Char) : afterMark 10 cs = cs := by
  unfold afterMark
  split <;> rfl

theorem value_ascii (ds : List Char) : value 10 (ds.map fun c => c.toNat - 48) = Nat.ofDigitChars 10 ds 0 := by
  rw [value, List.foldl_map, Nat.ofDigitChars_eq_foldl]
  rfl

/-- a number is read back from every spelling -/
theorem read_of_spells {n : Nat} {cs : List Char} (h : Spells n cs) : read cs = .ok n := by
  obtain ⟨hplus, hne, hlimit, hds, hvalue, hbefore, hafter⟩ := h
  rename_i plus ds before after
  have hfront : (before ++ (plus ++ ds ++ after)).dropWhile isOuterBlank = plus ++ ds ++ after := by
    refine dropWhile_append hbefore fun c hc => ?_
    obtain ⟨d, ds, rfl⟩ := List.exists_cons_of_ne_nil hne
    rcases hplus with rfl | rfl
    · obtain rfl : d = c := Option.some.inj hc
      exact isOuterBlank_of_isDigit (hds d List.mem_cons_self)
    · obtain rfl : '+' = c := Option.some.inj hc
      decide
  have hsome : (ds.map fun c => c.toNat - 48) ≠ [] := fun hnil => hne (List.map_eq_nil_iff.1 hnil)
  obtain ⟨d, ds', hcons⟩ := List.exists_cons_of_ne_nil hsome
  have hlength : ¬ ((mark? 10).isNone && decide (digitLimit < (d :: ds').length)) = true := by
    rw [← hcons, List.length_map, Bool.and_eq_true, decide_eq_true_eq]
    exact fun h => absurd h.2 (not_lt.2 hlimit)
  have hdigits : digits 10 (ds ++ after) = some (d :: ds', after) := by
    rw [digits_append hds hafter, hcons]
  rw [read, ofChars, hfront, List.append_assoc, sign_append hplus hne hds]
  simp only [afterMark_ten, hdigits]
  rw [if_neg hlength, if_pos (List.all_eq_true.2 hafter), ← hcons, value_ascii, hvalue]
  rfl

/-- the usual spelling of a number is one -/
theorem spells_toDigits {n : Nat} (h : (Nat.toDigits 10 n).length ≤ digitLimit) : Spells n (Nat.toDigits 10 n) := by
  have hpadded : Padded isOuterBlank (Nat.toDigits 10 n) ([] ++ (Nat.toDigits 10 n ++ [])) :=
    .around (by simp) (by simp)
  rw [List.nil_append, List.append_nil] at hpadded
  exact .decimal (.inl rfl) Nat.toDigits_ne_nil h
    (fun c hc => Nat.isDigit_of_mem_toDigits (by decide) (by decide) hc)
    (Nat.ofDigitChars_toDigits (by decide) (by decide)) hpadded

end Numeral

/-! ## Words -/

/-- one of the words in any letter case, with blanks around it -/
def SpellsWord (words : List String) (cs : List Char) : Prop :=
  ∃ core, String.ofList (lowerAscii core) ∈ words ∧ Padded isBlank core cs

/-- the words for a truth value -/
def truthWords : Bool → List String
  | true => ["1", "true", "yes", "on"]
  | false => ["0", "false", "no", "off"]

/-- a blank is no capital -/
theorem isBlank_toLower {c : Char} (h : isBlank c = true) : isBlank c.toLower = true := by
  have hself : c.toLower = c := by
    rw [toLower_eq_iff]
    simp only [isBlank, Bool.or_eq_true, Bool.and_eq_true, decide_eq_true_eq, beq_iff_eq] at h
    unfold LowersTo
    omega
  rw [hself, h]

/-- a word without blanks is found in all its spellings -/
theorem lowerAscii_strip_of_spells {words : List String} {cs : List Char}
    (hwords : ∀ w ∈ words, w.toList.all (!isBlank ·) = true) (h : SpellsWord words cs) :
    String.ofList (lowerAscii (strip cs)) ∈ words := by
  obtain ⟨core, hcore, hpadded⟩ := h
  have hnonblank : ∀ c ∈ core, isBlank c = false := by
    intro c hc
    by_contra hblank
    have hlower : c.toLower ∈ (String.ofList (lowerAscii core)).toList := by
      rw [String.toList_ofList]
      exact List.mem_map_of_mem hc
    have hword := List.all_eq_true.1 (hwords _ hcore) _ hlower
    rw [isBlank_toLower (Bool.not_eq_false _ ▸ hblank)] at hword
    cases hword
  rw [strip, trim_of_padded hnonblank hpadded]
  exact hcore

theorem readBool_of_spells {b : Bool} {raw : String} (h : SpellsWord (truthWords b) raw.toList) :
    Variable.readBool raw = .ok b := by
  have hwords : ∀ w ∈ truthWords b, w.toList.all (!isBlank ·) = true := by cases b <;> decide
  have hword := lowerAscii_strip_of_spells hwords h
  cases b with
  | true =>
    have htrue : ∀ w ∈ truthWords true, ["1", "true", "yes", "on"].contains w = true := by decide
    exact if_pos (htrue _ hword)
  | false =>
    have hfalse : ∀ w ∈ truthWords false, ¬ ["1", "true", "yes", "on"].contains w = true ∧
        ["0", "false", "no", "off"].contains w = true := by decide
    obtain ⟨hno, hyes⟩ := hfalse _ hword
    exact (if_neg hno).trans (if_pos hyes)

theorem EofPolicy.read_of_spells {p : EofPolicy} {raw : String} (h : SpellsWord [p.name] raw.toList) :
    EofPolicy.read (.ofString raw) = .ok p := by
  have hwords : ∀ w ∈ [p.name], w.toList.all (!isBlank ·) = true := by cases p <;> decide
  have hword := List.mem_singleton.1 (lowerAscii_strip_of_spells hwords h)
  rw [EofPolicy.read, Text.ofString, Text.toChars_ofChars, hword, ofName?_name]

/-! ## Environments -/

namespace Variable

/-- the text of the variable, or none, spells the value that its option has in the configuration; a step limit that is
none is spelled by no text or an empty one -/
inductive Writes (c : Config) : Variable → Option String → Prop where
  | tapeLength {text : String} (h : Numeral.Spells c.tapeLength text.toList) : Writes c .tapeLength (some text)
  | allowGrowth {text : String} (h : SpellsWord (truthWords c.allowGrowth) text.toList) :
      Writes c .allowGrowth (some text)
  | wrappingCells {text : String} (h : SpellsWord (truthWords c.wrappingCells) text.toList) :
      Writes c .wrappingCells (some text)
  | noLimit (h : c.maxSteps = none) : Writes c .stepLimit none
  | emptyLimit (h : c.maxSteps = none) : Writes c .stepLimit (some "")
  | stepLimit {n : Nat} {text : String} (h : c.maxSteps = some n) (htext : Numeral.Spells n text.toList) :
      Writes c .stepLimit (some text)
  | eofPolicy {text : String} (h : SpellsWord [c.eofPolicy.name] text.toList) : Writes c .eofPolicy (some text)
  | startOffset {text : String} (h : Numeral.Spells c.startOffset text.toList) : Writes c .startOffset (some text)
  | flushOutput {text : String} (h : SpellsWord (truthWords c.flushOutput) text.toList) :
      Writes c .flushOutput (some text)
  | eofValue {text : String} (h : Numeral.Spells c.eofValue.toNat text.toList) : Writes c .eofValue (some text)

theorem ne_empty_of_read {v : Variable} {text : String} {value : Value} (h : v.read text = .ok value) : text ≠ "" := by
  rintro rfl
  cases v <;> cases h

/-- the text is read back, or there is none to be read and no step limit -/
theorem Writes.read {c : Config} {v : Variable} {text? : Option String} (h : Writes c v text?) :
    (∃ text, text?.filter (· ≠ "") = some text ∧ v.read text = .ok (c.draft.value v.setting)) ∨
      text?.filter (· ≠ "") = none ∧ v = .stepLimit ∧ c.maxSteps = none := by
  have hread : ∀ {v : Variable} {text : String}, v.read text = .ok (c.draft.value v.setting) →
      ∃ t, (some text).filter (· ≠ "") = some t ∧ v.read t = .ok (c.draft.value v.setting) := by
    intro v text h
    exact ⟨text, Option.filter_eq_some_iff.2 ⟨rfl, decide_eq_true (ne_empty_of_read h)⟩, h⟩
  cases h with
  | noLimit h | emptyLimit h => exact .inr ⟨rfl, rfl, h⟩
  | tapeLength h | startOffset h | eofValue h =>
    refine .inl (hread ?_)
    rw [Variable.read, Numeral.read_of_spells h]
    rfl
  | stepLimit h htext =>
    refine .inl (hread ?_)
    rw [Variable.read, Numeral.read_of_spells htext, setting, Config.draft, h]
  | allowGrowth h | wrappingCells h | flushOutput h =>
    refine .inl (hread ?_)
    rw [Variable.read, readBool_of_spells h]
    rfl
  | eofPolicy h =>
    refine .inl (hread ?_)
    rw [Variable.read, EofPolicy.read_of_spells h]
    rfl

end Variable

namespace Config

/-- the options with a variable from one configuration, and the others from another -/
def overVariables (c b : Config) : Config :=
  { c with
    growthChunk := b.growthChunk
    precomputeJumps := b.precomputeJumps
    benchExecution := b.benchExecution
    growthChunk_pos := b.growthChunk_pos }

end Config

namespace Environment

variable {env : Environment} {c b : Config}

theorem converts_of_writes (h : ∀ v, Variable.Writes c v (env.get? v.name)) : env.Converts := by
  intro v raw hraw
  rcases (h v).read with ⟨text, htext, hread⟩ | ⟨hnone, -⟩
  · obtain rfl := Option.some.inj (htext.symm.trans hraw)
    exact ⟨_, hread⟩
  · cases hnone.symm.trans hraw

/-- what a variable gives is the value of its option; if it gives nothing, the option is no step limit -/
theorem valueOf?_of_writes (h : ∀ v, Variable.Writes c v (env.get? v.name)) (v : Variable) :
    env.valueOf? v = some (c.draft.value v.setting) ∨
      env.valueOf? v = none ∧ v = .stepLimit ∧ c.maxSteps = none := by
  unfold valueOf? Variable.raw?
  rcases (h v).read with ⟨text, htext, hread⟩ | ⟨hnone, hv⟩
  · left
    rw [htext, Option.bind_eq_bind, Option.bind_some, hread]
    rfl
  · right
    rw [hnone]
    exact ⟨rfl, hv⟩

theorem value?_setting (v : Variable) : env.value? v.setting = env.valueOf? v := by
  cases v <;> rfl

/-- what the variables spell, laid over a configuration -/
theorem under_of_writes (hlimit : c.maxSteps = none → b.maxSteps = none)
    (h : ∀ v, Variable.Writes c v (env.get? v.name)) : b.draft.under env.value? = (c.overVariables b).draft := by
  have hcovered : ∀ v : Variable,
      (b.draft.under env.value?).value v.setting = (c.overVariables b).draft.value v.setting := by
    intro v
    have hown : (c.overVariables b).draft.value v.setting = c.draft.value v.setting := by cases v <;> rfl
    have hvalue : (b.draft.under env.value?).value v.setting = (env.valueOf? v).getD (b.draft.value v.setting) := by
      rw [← value?_setting]
      rfl
    rw [hown, hvalue]
    rcases valueOf?_of_writes h v with hsome | ⟨hnone, rfl, hc⟩
    · rw [hsome]
      rfl
    · rw [hnone]
      simp only [Option.getD_none, Variable.setting, Config.draft, hc, hlimit hc]
  refine congrArg Draft.mk (funext fun s => ?_)
  cases s with
  | tapeLength => exact hcovered .tapeLength
  | allowGrowth => exact hcovered .allowGrowth
  | wrappingCells => exact hcovered .wrappingCells
  | maxSteps => exact hcovered .stepLimit
  | eofPolicy => exact hcovered .eofPolicy
  | startOffset => exact hcovered .startOffset
  | flushOutput => exact hcovered .flushOutput
  | eofValue => exact hcovered .eofValue
  | growthChunk | precomputeJumps | benchExecution => rfl

end Environment

/-- **An environment decodes what it spells.** If every variable spells the option of a configuration `c` (a number in
decimal with any blanks around it and with or without a plus, a truth value as any of its words and the policy as its
name, in any letter case and with blanks around it, and no step limit as a variable that is unset or empty), then the
environment over a base gives these options, and the base's for the three that have no variable. Only the step limit of
the base would show through where `c` has none. Other variables make no difference. -/
theorem environment_decodes {env : Environment} {c b : Config} (hlimit : c.maxSteps = none → b.maxSteps = none)
    (h : ∀ v : Variable, v.Writes c (env.get? v.name)) :
    env.config b = .ok (c.overVariables b) := by
  rw [Environment.config_of_converts (Environment.converts_of_writes h) b.reads_draft,
    Environment.under_of_writes hlimit h, Config.build_draft]
  rfl

/-- a byte with a plus, zeros in front and blanks around it, an empty limit, and words in any letter case -/
theorem environment_decodes_spelled_options :
    ∃ (env : Environment) (c b : Config), env.get? "BF_EOF_VALUE" = some "\t+007\n" ∧
      env.get? "BF_ALLOW_GROWTH" = some "OFF " ∧ env.get? "HOME" = some "/" ∧ c.maxSteps = none ∧ b.maxSteps = none ∧
      (∀ v : Variable, v.Writes c (env.get? v.name)) ∧ c.allowGrowth = false ∧ c.eofValue = 7 ∧ b.growthChunk = 5 ∧
      env.config b = .ok (c.overVariables b) := by
  let env : Environment := [("HOME", "/"), ("BF_TAPE_LENGTH", "12"), ("BF_EOF_VALUE", "\t+007\n"),
    ("BF_STEP_LIMIT", ""), ("BF_EOF_POLICY", " vAlue"), ("BF_ALLOW_GROWTH", "OFF "), ("BF_WRAPPING_CELLS", "1"),
    ("BF_FLUSH_OUTPUT", "Yes"), ("BF_START_OFFSET", "11")]
  let c : Config := { tapeLength := 12, allowGrowth := false, eofPolicy := .value, startOffset := 11, eofValue := 7 }
  let b : Config := { growthChunk := 5, precomputeJumps := false }
  have hword : ∀ {words : List String} {text : String} (before core after : List Char),
      text.toList = before ++ (core ++ after) → String.ofList (lowerAscii core) ∈ words →
        (∀ c ∈ before, isBlank c = true) → (∀ c ∈ after, isBlank c = true) → SpellsWord words text.toList := by
    intro words text before core after htext hcore hbefore hafter
    exact ⟨core, hcore, htext ▸ .around hbefore hafter⟩
  have hblank : ∀ c ∈ [' '], isBlank c = true := List.forall_mem_singleton.2 (by decide)
  have hwrites : ∀ v : Variable, v.Writes c (env.get? v.name) := by
    intro v
    cases v with
    | tapeLength => exact .tapeLength (Numeral.spells_toDigits (n := 12) (by decide))
    | allowGrowth => exact .allowGrowth (hword [] "OFF".toList [' '] rfl (by decide) (by simp) hblank)
    | wrappingCells => exact .wrappingCells (hword [] "1".toList [] rfl (by decide) (by simp) (by simp))
    | stepLimit => exact .emptyLimit rfl
    | eofPolicy => exact .eofPolicy (hword [' '] "vAlue".toList [] rfl (by decide) hblank (by simp))
    | startOffset => exact .startOffset (Numeral.spells_toDigits (n := 11) (by decide))
    | flushOutput => exact .flushOutput (hword [] "Yes".toList [] rfl (by decide) (by simp) (by simp))
    | eofValue =>
      have hbefore : ∀ c ∈ ['\t'], Numeral.isOuterBlank c = true := List.forall_mem_singleton.2 (by decide)
      have hafter : ∀ c ∈ ['\n'], Numeral.isOuterBlank c = true := List.forall_mem_singleton.2 (by decide)
      have hpadded : Padded Numeral.isOuterBlank (['+'] ++ "007".toList) "\t+007\n".toList := .around hbefore hafter
      have hdigits : ∀ c ∈ "007".toList, c.isDigit = true := List.all_eq_true.1 (by decide)
      exact .eofValue (.decimal (.inr rfl) (by decide) (by decide) hdigits rfl hpadded)
  exact ⟨env, c, b, rfl, rfl, rfl, rfl, rfl, hwrites, rfl, rfl, rfl, environment_decodes (fun _ => rfl) hwrites⟩

end Brainfuck
