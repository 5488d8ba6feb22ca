/-
Comments say nothing.

`Script.bare` is a script without its comments. A text that is cut at a command is cut there without its comments too
(`stripComments_cut`), so an offset in one of the texts is found again in the other.

- `ParsedBare source r r'`: what parsing a script comes to (`r`), and parsing it without its comments (`r'`). Both are
  one program, and its commands stand side by side in the second; or both blame one bracket, and the offset in the
  second is the number of its command in the first.
- `RunsBare`: what a session makes of the two, as scripts and as parsed programs.
- `comments_are_irrelevant`: this holds of every script, and the code of a program is parsed to that program.
-/
import Brainfuck.Proofs.Blame
import Brainfuck.Proofs.Lockstep

namespace Brainfuck

open Brainfuck.Bracket

/-! ## Texts -/

/-- the script without its comments -/
def Script.bare (source : Script) : Script := .text (String.ofList (stripComments source.chars))

/-- the code of a program as a script -/
def Program.script (p : Program) : Script := .text (String.ofList p.code)

@[simp] theorem Script.chars_bare (source : Script) : source.bare.chars = stripComments source.chars :=
  String.toList_ofList

@[simp] theorem Program.chars_script (p : Program) : p.script.chars = p.code := String.toList_ofList

@[simp] theorem commandsOf_stripComments (cs : List Char) : commandsOf (stripComments cs) = commandsOf cs := by
  rw [stripComments_eq_spell, commandsOf_spell]

theorem stripComments_stripComments (cs : List Char) : stripComments (stripComments cs) = stripComments cs := by
  rw [stripComments_eq_spell, commandsOf_stripComments, ← stripComments_eq_spell]

theorem length_stripComments (cs : List Char) : (stripComments cs).length = (commandsOf cs).length := by
  rw [stripComments_eq_spell, spell, List.length_map]

/-- a text cut at a command is cut there without its comments -/
theorem stripComments_cut (a b : List Char) (c : Command) :
    stripComments (a ++ c.char :: b) = stripComments a ++ c.char :: stripComments b := by
  simp [stripComments]

/-- where nothing is a comment, each command stands at its own index -/
theorem offsets_spell (commands : List Command) : Program.offsets (spell commands) = List.range commands.length := by
  simp [Program.offsets, Program.located, spell, List.zipIdx_map, List.filterMap_map, Function.comp_def,
    List.range_eq_range']

theorem offsets_stripComments (cs : List Char) :
    Program.offsets (stripComments cs) = List.range (commandsOf cs).length := by
  rw [stripComments_eq_spell, offsets_spell]

/-! ## Parsing -/

/-- what parsing a script comes to, and parsing it without its comments: the same commands and the same table, now side
by side, or errors of one kind, at command number `q` if `q` is the offset without comments -/
inductive ParsedBare (source : Script) : Except ParseError Program → Except ParseError Program → Prop where
  | parsed {p p' : Program} : p'.commands = p.commands → p'.table = p.table → p.code = stripComments source.chars →
      p'.code = stripComments source.chars → p'.positions = Array.range p'.length → ParsedBare source (.ok p) (.ok p')
  | refused {e e' : ParseError} : e'.kind = e.kind →
      (Program.offsets source.chars)[e'.place.position]? = some e.place.position →
      ParsedBare source (.error e) (.error e')

section Parsing

variable {source : Script} {precompute : Bool}

/-- errors at a bracket of the text, and at the same bracket without the comments -/
theorem parsedBare_of_cut {a b : List Char} {bracket : Unmatched} {c : Command} (hcut : source.chars = a ++ c.char :: b) :
    ParsedBare source (.error ⟨bracket, .of source.chars a.length⟩)
      (.error ⟨bracket, .of source.bare.chars (stripComments a).length⟩) := by
  apply ParsedBare.refused
  · cases bracket <;> rfl
  · simp only [Place.of, hcut, length_stripComments]
    exact Program.getElem?_offsets a b c

theorem parsedBare_of_ok {p : Program} (h : Program.parse source precompute = .ok p) :
    ParsedBare source (.ok p) (Program.parse source.bare precompute) := by
  obtain ⟨l, hl, hpending, rfl⟩ := Program.parse_eq_ok_iff.1 h
  have hlbare : link (commandsOf source.bare.chars) = .ok l := by simpa using hl
  rw [Program.parse_eq_ok_iff.2 ⟨l, hlbare, hpending, rfl⟩]
  apply ParsedBare.parsed
  · simp
  · rfl
  · exact (stripComments_eq_spell source.chars).symm
  · simp [Program.code, stripComments_eq_spell]
  · simp [Program.length, offsets_stripComments]

theorem parsedBare (source : Script) (precompute : Bool) :
    ParsedBare source (Program.parse source precompute) (Program.parse source.bare precompute) := by
  rcases Program.parse_outcome source precompute with
    ⟨⟨p, hp⟩, -⟩ | ⟨a, b, hcut, ha, he⟩ | ⟨a, b, hcut, ha, hb, he⟩
  · rw [hp]
    exact parsedBare_of_ok hp
  · have hbare : source.bare.chars = stripComments a ++ ']' :: stripComments b := by
      rw [Script.chars_bare, hcut]
      exact stripComments_cut a b .loopEnd
    have ha' : Balanced (commandsOf (stripComments a)) := by rwa [commandsOf_stripComments]
    have he' : Program.parse source.bare precompute = _ := parse_of_stray hbare ha'
    rw [he, he']
    exact parsedBare_of_cut (c := .loopEnd) hcut
  · have hbare : source.bare.chars = stripComments a ++ '[' :: stripComments b := by
      rw [Script.chars_bare, hcut]
      exact stripComments_cut a b .loopStart
    have ha' : Balanced (commandsOf (stripComments a)) := by rwa [commandsOf_stripComments]
    have hb' : NeverBelow (commandsOf (stripComments b)) := by rwa [commandsOf_stripComments]
    have he' : Program.parse source.bare precompute = _ := parse_of_open hbare ha' hb'
    rw [he, he']
    exact parsedBare_of_cut (c := .loopStart) hcut

/-- the code of a program is parsed to the program, now side by side -/
theorem parse_script {p : Program} (h : Program.parse source precompute = .ok p) :
    Program.parse p.script precompute = .ok { p with positions := Array.range p.length } := by
  obtain ⟨l, hl, hpending, rfl⟩ := Program.parse_eq_ok_iff.1 h
  refine Program.parse_eq_ok_iff.2 ⟨l, ?_, hpending, ?_⟩
  · simpa [Program.code] using hl
  · simp [Program.code, Program.length, offsets_spell]

/-- the code of a program is parsed to the program with its table -/
theorem parse_script_withTable {p : Program} (h : Program.parse source precompute = .ok p) :
    Program.parse p.script true = .ok { p.withTable with positions := Array.range p.length } := by
  obtain ⟨l, hl, hpending, rfl⟩ := Program.parse_eq_ok_iff.1 h
  refine Program.parse_eq_ok_iff.2 ⟨l, ?_, hpending, ?_⟩
  · simpa [Program.code] using hl
  · cases precompute <;> simp [Program.withTable, Program.code, Program.length, offsets_spell, hl]

end Parsing

/-! ## Running -/

/-- a script with its comments and without them, as two jobs: the texts, or what they were parsed to -/
inductive SameBare (source : Script) : Job → Job → Prop where
  | script : SameBare source (.script source) (.script source.bare)
  | parsed {a b : Bool} {p p' : Program} : Program.parse source a = .ok p → Program.parse source.bare b = .ok p' →
      SameBare source (.parsed p) (.parsed p')

variable {σ τ : Type} [ByteSource σ] [ByteSink τ]

/-- what a session makes of the two jobs: machines that agree all along and executions with the same outcome, or errors
for the same bracket -/
inductive RunsBare (source : Script) (s : Session σ τ) (job job' : Job) : Prop where
  | ran {m m' : Machine σ τ} : s.prepare job = .ok m → s.prepare job' = .ok m' → SameRuns (.ok m) (.ok m') →
      (∀ u, Session.SameOutcome (s.execute u job) (s.execute u job')) → RunsBare source s job job'
  | refused {e e' : ParseError} : s.prepare job = .error e → s.prepare job' = .error e' →
      ParsedBare source (.error e) (.error e') → RunsBare source s job job'

theorem runsBare_of_commands {source : Script} {p q : Program} (s : Session σ τ) {job job' : Job} (hjob : job.Parsed)
    (hjob' : job'.Parsed) (hp : job.program s.config = .ok p) (hq : job'.program s.config = .ok q)
    (hc : q.commands = p.commands) : RunsBare source s job job' := by
  obtain ⟨m, m', hm, hm', hruns, houtcome⟩ := s.exists_prepare_of_commands hjob hjob' hp hq hc
  exact .ran hm hm' hruns houtcome

theorem SameBare.runsBare {source : Script} {job job' : Job} (h : SameBare source job job') (s : Session σ τ) :
    RunsBare source s job job' := by
  cases h with
  | script =>
    have hboth := parsedBare source s.config.precomputeJumps
    generalize hp : Program.parse source s.config.precomputeJumps = r at hboth
    generalize hq : Program.parse source.bare s.config.precomputeJumps = r' at hboth
    cases hboth with
    | parsed hc => exact runsBare_of_commands s trivial trivial hp hq hc
    | refused hkind hoffset =>
      exact .refused (s.prepare_eq_error hp) (s.prepare_eq_error hq) (.refused hkind hoffset)
  | @parsed a b p q hp hq =>
    refine runsBare_of_commands s ⟨_, _, hp⟩ ⟨_, _, hq⟩ rfl rfl ?_
    obtain ⟨l, -, -, rfl⟩ := Program.parse_eq_ok_iff.1 hp
    obtain ⟨l', -, -, rfl⟩ := Program.parse_eq_ok_iff.1 hq
    simp [Program.commands_ite_withTable]

/-- **Comments are irrelevant.** Dropping the comments of a script twice is dropping them once. With them and without
them a script is parsed to the same commands and the same table, or is refused for the same bracket, and every session
runs the two alike. The code of a program, of which every command stands at its own index, is parsed to the program. -/
theorem comments_are_irrelevant (source : Script) :
    stripComments (stripComments source.chars) = stripComments source.chars ∧
    (∀ precompute, ParsedBare source (Program.parse source precompute) (Program.parse source.bare precompute)) ∧
    (∀ precompute p, Program.parse source precompute = .ok p →
      Program.parse p.script precompute = .ok { p with positions := Array.range p.length } ∧
      Program.parse p.script true = .ok { p.withTable with positions := Array.range p.length }) ∧
    ∀ (s : Session σ τ) (job job' : Job), SameBare source job job' → RunsBare source s job job' :=
  ⟨stripComments_stripComments _, parsedBare source, fun _ _ h => ⟨parse_script h, parse_script_withTable h⟩,
    fun s _ _ h => h.runsBare s⟩

/-- a stray loop end behind two comments, and a loop with a comment in it -/
theorem comments_are_irrelevant_stray_and_loop :
    (∃ e e', Program.parse (.text "a+b]") true = .error e ∧ Program.parse (Script.text "a+b]").bare true = .error e' ∧
      e.place.position = 3 ∧ e'.place.position = 1 ∧ ParsedBare (.text "a+b]") (.error e) (.error e')) ∧
    ∃ (s : Session Source Sink) (p p' : Program), SameBare (.bytes [91, 233, 45, 93]) (.parsed p) (.parsed p') ∧
      p.positions = #[0, 2, 3] ∧ p'.positions = #[0, 1, 2] ∧
      RunsBare (.bytes [91, 233, 45, 93]) s (.parsed p) (.parsed p') ∧
      Program.parse p.script true = .ok p' := by
  obtain ⟨-, hparse, -, -⟩ := comments_are_irrelevant (σ := Source) (τ := Sink) (.text "a+b]")
  obtain ⟨-, -, hcode, hruns⟩ := comments_are_irrelevant (σ := Source) (τ := Sink) (.bytes [91, 233, 45, 93])
  constructor
  · exact ⟨_, _, rfl, rfl, rfl, rfl, hparse true⟩
  · let s : Session Source Sink := .start default (.replayed (.buffer [])) (.buffer #[])
    have hsame : SameBare (.bytes [91, 233, 45, 93]) (.parsed _) (.parsed _) := .parsed (a := true) (b := true) rfl rfl
    exact ⟨s, _, _, hsame, rfl, rfl, hruns s _ _ hsame, (hcode true _ rfl).1⟩

end Brainfuck
