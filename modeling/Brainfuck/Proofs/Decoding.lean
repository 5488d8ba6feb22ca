/-
A program file, read as text and as bytes.

Commands and line feeds are ASCII, so the text of a file and its bytes, one character for each, have the same commands
(`Utf8.Spells.commandsOf_eq`) and as many line feeds (`Utf8.Spells.count_eq`), and a text that is cut at a command cuts
its bytes (`Utf8.Spells.exists_cut`).

- `Utf8.CharsBefore bytes q n`: the first `q` bytes of a file come to `n` characters of its text.
- `SameBracket`, `ParsedAlike`: the text and the bytes blame the same bracket, or are parsed to the same commands and
  the same table. `RunsAlike`: a session does the same with both.
- `file_text_and_bytes_agree`: this holds of every file, be it in UTF-8 or not.
-/
import Brainfuck.Proofs.Blame
import Brainfuck.Proofs.Lockstep

namespace Brainfuck

open Brainfuck.Utf8

/-! ## Commands and line feeds -/

theorem Command.toNat_char_lt (c : Command) : c.char.toNat < 0x80 := by cases c <;> decide

theorem commandsOf_asciiOnly (cs : List Char) : commandsOf (asciiOnly cs) = commandsOf cs := by
  rw [commandsOf, asciiOnly, List.filterMap_filter, commandsOf]
  congr 1
  funext a
  cases ha : Command.ofChar? a with
  | none => simp
  | some c =>
    have hlt : a.toNat < 0x80 := Command.ofChar?_eq_some_iff.1 ha ▸ c.toNat_char_lt
    simp [hlt]

theorem count_asciiOnly {c : Char} (hc : c.toNat < 0x80) (cs : List Char) : (asciiOnly cs).count c = cs.count c :=
  List.count_filter (by simpa using hc)

namespace Utf8.Spells

variable {bytes : List UInt8} {cs a b : List Char} {c : Char}

theorem commandsOf_eq (h : Spells bytes cs) : commandsOf (oneCharPerByte bytes) = commandsOf cs := by
  rw [← commandsOf_asciiOnly, h.asciiOnly_eq, commandsOf_asciiOnly]

theorem count_eq (h : Spells bytes cs) (hc : c.toNat < 0x80) : (oneCharPerByte bytes).count c = cs.count c := by
  rw [← count_asciiOnly hc, h.asciiOnly_eq, count_asciiOnly hc]

/-- a text that is cut at an ASCII character, and its bytes, which are cut at the byte of this character -/
theorem exists_cut (hc : c.toNat < 0x80) (h : Spells bytes (a ++ c :: b)) :
    ∃ x y, oneCharPerByte bytes = oneCharPerByte x ++ c :: oneCharPerByte y ∧ bytes.take x.length = x ∧
      Spells x a ∧ Spells y b := by
  obtain ⟨x, rest, rfl, hx, hrest⟩ := h.split
  obtain ⟨y, hy, hyb⟩ := hrest.exists_of_ascii hc
  refine ⟨x, y, ?_, List.take_left, hx, hyb⟩
  rw [oneCharPerByte_append, hy]

end Utf8.Spells

/-! ## Parsing -/

/-- the first `q` bytes of a file come to so many characters of its text -/
inductive Utf8.CharsBefore (bytes : List UInt8) (q : Nat) : Nat → Prop where
  | utf8 {cs front : List Char} : decode bytes = .ok cs → decode (bytes.take q) = .ok front →
      CharsBefore bytes q front.length
  | perByte {e : Malformed} : decode bytes = .error e → CharsBefore bytes q (oneCharPerByte (bytes.take q)).length

/-- errors in the text and in the bytes of a file that blame the same bracket; the lines are the same, and the offset in
the text counts the characters in front of the offset in the bytes -/
structure SameBracket (bytes : List UInt8) (e e' : ParseError) : Prop where
  kind : e'.kind = e.kind
  line : e'.place.line = e.place.line
  position : CharsBefore bytes e'.place.position e.place.position

/-- what parsing the text of a file and parsing its bytes come to: the same commands and the same table, or errors that
blame the same bracket -/
inductive ParsedAlike (bytes : List UInt8) : Except ParseError Program → Except ParseError Program → Prop where
  | parsed {p p' : Program} : p'.commands = p.commands → p'.table = p.table → ParsedAlike bytes (.ok p) (.ok p')
  | refused {e e' : ParseError} : SameBracket bytes e e' → ParsedAlike bytes (.error e) (.error e')

theorem Program.parse_congr {source source' : Script} (h : source'.chars = source.chars) (precompute : Bool) :
    parse source' precompute = parse source precompute := by
  unfold parse
  rw [h]

namespace Script

variable {bytes : List UInt8} {cs : List Char}

theorem chars_ofFile_of_spells (h : Spells bytes cs) : (ofFile bytes).chars = cs := by
  simp only [ofFile, decode_eq_ok_iff.2 h, chars, String.toList_ofList]

/-- a file that is no UTF-8 is read as its bytes are -/
theorem chars_ofFile_of_malformed {e : Malformed} (h : decode bytes = .error e) :
    (ofFile bytes).chars = (Script.bytes bytes).chars := by
  simp only [ofFile, h, chars, String.toList_ofList]

end Script

section Parsing

variable {bytes : List UInt8} {cs a b : List Char} {precompute : Bool} {p : Program}

theorem parsedAlike_of_malformed {e : Malformed} (h : decode bytes = .error e) (precompute : Bool) :
    ParsedAlike bytes (Program.parse (.ofFile bytes) precompute) (Program.parse (.bytes bytes) precompute) := by
  rw [Program.parse_congr (Script.chars_ofFile_of_malformed h)]
  cases hparse : Program.parse (.bytes bytes) precompute with
  | ok p => exact .parsed rfl rfl
  | error e' =>
    refine .refused ⟨rfl, rfl, ?_⟩
    obtain ⟨-, hstands, -⟩ := stands_of_parse_error hparse
    have hlt : e'.place.position < (Script.bytes bytes).chars.length := (List.getElem?_eq_some_iff.1 hstands).1
    have hposition : (oneCharPerByte (bytes.take e'.place.position)).length = e'.place.position := by
      simp only [Script.chars, oneCharPerByte, List.length_map] at hlt
      simp only [oneCharPerByte, List.length_map, List.length_take]
      omega
    have hbefore : CharsBefore bytes e'.place.position (oneCharPerByte (bytes.take e'.place.position)).length :=
      .perByte h
    rwa [hposition] at hbefore

theorem exists_parse_bytes (h : Spells bytes cs) (hp : Program.parse (.ofFile bytes) precompute = .ok p) :
    ∃ p', Program.parse (.bytes bytes) precompute = .ok p' ∧ p'.commands = p.commands ∧ p'.table = p.table := by
  obtain ⟨l, hl, hpending, rfl⟩ := Program.parse_eq_ok_iff.1 hp
  rw [Script.chars_ofFile_of_spells h, ← h.commandsOf_eq] at hl
  refine ⟨_, Program.parse_eq_ok_iff.2 ⟨l, hl, hpending, rfl⟩, ?_, rfl⟩
  simp only [Script.chars_ofFile_of_spells h]
  exact congrArg List.toArray h.commandsOf_eq

/-- errors at a character of the text and at its byte -/
theorem sameBracket_of_cut {x y : List UInt8} {bracket : Unmatched} {c : Char} (h : Spells bytes (a ++ c :: b))
    (hbytes : oneCharPerByte bytes = oneCharPerByte x ++ c :: oneCharPerByte y) (htake : bytes.take x.length = x)
    (hx : Spells x a) :
    SameBracket bytes ⟨bracket, .of (a ++ c :: b) a.length⟩
      ⟨bracket, .of (oneCharPerByte bytes) (oneCharPerByte x).length⟩ where
  kind := by cases bracket <;> rfl
  line := by
    have hcount := hx.count_eq (c := '\n') (by decide)
    simp only [Place.of, hbytes, List.take_left, hcount]
  position := by
    refine .utf8 (decode_eq_ok_iff.2 h) (decode_eq_ok_iff.2 ?_)
    simp only [Place.of, oneCharPerByte, List.length_map, htake]
    exact hx

theorem parsedAlike_of_spells (h : Spells bytes cs) (precompute : Bool) :
    ParsedAlike bytes (Program.parse (.ofFile bytes) precompute) (Program.parse (.bytes bytes) precompute) := by
  have hchars : (Script.ofFile bytes).chars = cs := Script.chars_ofFile_of_spells h
  rcases Program.parse_outcome (.ofFile bytes) precompute with
    ⟨⟨p, hp⟩, -⟩ | ⟨a, b, hcut, ha, he⟩ | ⟨a, b, hcut, ha, hb, he⟩
  · obtain ⟨p', hp', hcommands, htable⟩ := exists_parse_bytes h hp
    rw [hp, hp']
    exact .parsed hcommands htable
  · rw [hcut] at he hchars
    subst hchars
    obtain ⟨x, y, hbytes, htake, hx, -⟩ := h.exists_cut (by decide)
    have hx' : Balanced (commandsOf (oneCharPerByte x)) := by rwa [hx.commandsOf_eq]
    have hstray : Program.parse (.bytes bytes) precompute = .error ⟨.loopEnd, _⟩ := parse_of_stray hbytes hx'
    rw [he, hstray]
    exact .refused (sameBracket_of_cut h hbytes htake hx)
  · rw [hcut] at he hchars
    subst hchars
    obtain ⟨x, y, hbytes, htake, hx, hy⟩ := h.exists_cut (by decide)
    have hx' : Balanced (commandsOf (oneCharPerByte x)) := by rwa [hx.commandsOf_eq]
    have hy' : NeverBelow (commandsOf (oneCharPerByte y)) := by rwa [hy.commandsOf_eq]
    have hopen : Program.parse (.bytes bytes) precompute = .error ⟨.loopStart, _⟩ := parse_of_open hbytes hx' hy'
    rw [he, hopen]
    exact .refused (sameBracket_of_cut h hbytes htake hx)

theorem parsedAlike (bytes : List UInt8) (precompute : Bool) :
    ParsedAlike bytes (Program.parse (.ofFile bytes) precompute) (Program.parse (.bytes bytes) precompute) := by
  cases hdecode : decode bytes with
  | ok cs => exact parsedAlike_of_spells (decode_eq_ok_iff.1 hdecode) precompute
  | error e => exact parsedAlike_of_malformed hdecode precompute

end Parsing

/-! ## Running -/

/-- one file as two jobs: its text and its bytes, or what both were parsed to -/
inductive SameFile (bytes : List UInt8) : Job → Job → Prop where
  | script : SameFile bytes (.script (.ofFile bytes)) (.script (.bytes bytes))
  | parsed {precompute : Bool} {p p' : Program} : Program.parse (.ofFile bytes) precompute = .ok p →
      Program.parse (.bytes bytes) precompute = .ok p' → SameFile bytes (.parsed p) (.parsed p')

variable {σ τ : Type} [ByteSource σ] [ByteSink τ]

/-- what a session makes of two jobs on one file: machines that agree all along and executions with the same outcome, or
errors that blame the same bracket -/
inductive RunsAlike (bytes : List UInt8) (s : Session σ τ) (job job' : Job) : Prop where
  | ran {m m' : Machine σ τ} : s.prepare job = .ok m → s.prepare job' = .ok m' → SameRuns (.ok m) (.ok m') →
      (∀ u, Session.SameOutcome (s.execute u job) (s.execute u job')) → RunsAlike bytes s job job'
  | refused {e e' : ParseError} : s.prepare job = .error e → s.prepare job' = .error e' → SameBracket bytes e e' →
      RunsAlike bytes s job job'

theorem runsAlike_of_commands {bytes : List UInt8} {p q : Program} (s : Session σ τ) {job job' : Job}
    (hjob : job.Parsed) (hjob' : job'.Parsed) (hp : job.program s.config = .ok p) (hq : job'.program s.config = .ok q)
    (hc : q.commands = p.commands) : RunsAlike bytes s job job' := by
  obtain ⟨_, _, hm, hm', hruns, houtcome⟩ := s.exists_prepare_of_commands hjob hjob' hp hq hc
  exact .ran hm hm' hruns houtcome

theorem SameFile.runsAlike {bytes : List UInt8} {job job' : Job} (h : SameFile bytes job job') (s : Session σ τ) :
    RunsAlike bytes s job job' := by
  cases h with
  | script =>
    have hboth := parsedAlike bytes s.config.precomputeJumps
    generalize hp : Program.parse (.ofFile bytes) s.config.precomputeJumps = r at hboth
    generalize hq : Program.parse (.bytes bytes) s.config.precomputeJumps = r' at hboth
    cases hboth with
    | parsed hc _ => exact runsAlike_of_commands s trivial trivial hp hq hc
    | refused he => exact .refused (s.prepare_eq_error hp) (s.prepare_eq_error hq) he
  | @parsed precompute p q hp hq =>
    have hboth := parsedAlike bytes precompute
    rw [hp, hq] at hboth
    cases hboth with
    | parsed hc _ =>
      refine runsAlike_of_commands s ⟨_, _, hp⟩ ⟨_, _, hq⟩ rfl rfl ?_
      rw [Program.commands_ite_withTable, Program.commands_ite_withTable, hc]

/-- **A program file reads the same as text and as bytes.** Whatever a file holds, its text and its bytes are parsed to
the same commands and the same table, or are refused for the same bracket: the errors are of one kind and on one line,
and the offset in the text is the number of characters in front of the offset in the bytes. Every session runs the two
alike, as scripts and as parsed programs. -/
theorem file_text_and_bytes_agree (bytes : List UInt8) :
    (∀ precompute,
      ParsedAlike bytes (Program.parse (.ofFile bytes) precompute) (Program.parse (.bytes bytes) precompute)) ∧
    ∀ (s : Session σ τ) (job job' : Job), SameFile bytes job job' → RunsAlike bytes s job job' :=
  ⟨parsedAlike bytes, fun s _ _ h => h.runsAlike s⟩

/-- a stray loop end on the second line, behind a character of two bytes, and a program with such a comment -/
theorem file_text_and_bytes_agree_two_bytes :
    (∃ e e', Program.parse (.ofFile [0xC3, 0xA9, 10, 93]) true = .error e ∧
      Program.parse (.bytes [0xC3, 0xA9, 10, 93]) true = .error e' ∧
      e.place = ⟨2, 2, 1⟩ ∧ e'.place = ⟨3, 2, 1⟩ ∧ SameBracket [0xC3, 0xA9, 10, 93] e e') ∧
    ∃ s : Session Source Sink,
      SameFile [0xC3, 0xA9, 43] (.script (.ofFile [0xC3, 0xA9, 43])) (.script (.bytes [0xC3, 0xA9, 43])) ∧
      RunsAlike [0xC3, 0xA9, 43] s (.script (.ofFile [0xC3, 0xA9, 43])) (.script (.bytes [0xC3, 0xA9, 43])) := by
  constructor
  · have htext : Program.parse (.ofFile [0xC3, 0xA9, 10, 93]) true = .error ⟨.loopEnd, ⟨2, 2, 1⟩⟩ := by decide +kernel
    have hbytes : Program.parse (.bytes [0xC3, 0xA9, 10, 93]) true = .error ⟨.loopEnd, ⟨3, 2, 1⟩⟩ := by decide
    have hboth := (file_text_and_bytes_agree (σ := Source) (τ := Sink) [0xC3, 0xA9, 10, 93]).1 true
    rw [htext, hbytes] at hboth
    cases hboth with
    | refused hsame => exact ⟨_, _, htext, hbytes, rfl, rfl, hsame⟩
  · let s : Session Source Sink := .start default (.replayed (.buffer [])) (.buffer #[])
    exact ⟨s, .script, (file_text_and_bytes_agree [0xC3, 0xA9, 43]).2 s _ _ .script⟩

end Brainfuck
