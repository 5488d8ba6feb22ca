/-
Programs: the commands of a text, where each stands in it, and which brackets belong together.

`Program.parse` refuses a text whose brackets do not pair up. A loop end without a loop start is blamed first; otherwise
the earliest loop start that is never closed. The bracket table is part of the program, or is left out and the partner
of a bracket is looked for when it is needed (`Brainfuck.Scan`).
-/
import Brainfuck.Bracket
import Brainfuck.Script

namespace Brainfuck

/-- which bracket has no partner -/
inductive Unmatched where
  | loopStart
  | loopEnd
deriving DecidableEq, Repr

/-- a bracket without partner, and its place -/
structure ParseError where
  bracket : Unmatched
  place : Place
deriving DecidableEq, Repr

/-- a parsed program; entry `i` of each array belongs to command `i` -/
structure Program where
  commands : Array Command
  /-- offsets in the text -/
  positions : Array Nat
  /-- partners of the brackets, or `none` if they are looked for at run time -/
  table : Option (Array (Option Nat))
deriving DecidableEq, Repr

namespace Program

/-- the commands of a text with their offsets -/
def located (cs : List Char) : List (Nat × Command) :=
  cs.zipIdx.filterMap fun (a, offset) => (Command.ofChar? a).map (offset, ·)

/-- the offsets of the commands -/
def offsets (cs : List Char) : List Nat := (located cs).map Prod.fst

/-- blame the command with an index -/
def unmatched (cs : List Char) (bracket : Unmatched) (index : Nat) : ParseError :=
  ⟨bracket, .of cs ((offsets cs).getD index 0)⟩

/-- the program of a text, with or without the bracket table -/
def parse (source : Script) (precompute : Bool) : Except ParseError Program :=
  let cs := source.chars
  let commands := commandsOf cs
  match Bracket.link commands with
  | .error index => .error (unmatched cs .loopEnd index)
  | .ok links =>
    match links.pending.getLast? with
    | some index => .error (unmatched cs .loopStart index)
    | none =>
      .ok ⟨commands.toArray, (offsets cs).toArray, if precompute then some links.table else none⟩

/-- the program with its bracket table -/
def withTable (p : Program) : Program :=
  match p.table with
  | some _ => p
  | none =>
    match Bracket.link p.commands.toList with
    | .ok links => { p with table := some links.table }
    | .error _ => p

def length (p : Program) : Nat := p.commands.size

/-- the program text without comments -/
def code (p : Program) : List Char := spell p.commands.toList

theorem map_snd_located (cs : List Char) : (located cs).map Prod.snd = commandsOf cs := by
  have shifted : ∀ (l : List Char) (n : Nat),
      ((l.zipIdx n).filterMap fun x => (Command.ofChar? x.1).map (x.2, ·)).map Prod.snd = commandsOf l := by
    intro l
    induction l with
    | nil => intro n; rfl
    | cons a l ih =>
      intro n
      simp only [List.zipIdx_cons, commandsOf, List.filterMap_cons]
      cases Command.ofChar? a <;> simp_all [commandsOf]
  exact shifted cs 0

end Program

end Brainfuck
