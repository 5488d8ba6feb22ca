/-
The eight commands of the language and the characters that spell them.

Every other character of a program text is a comment. `Command.ofChar?_eq_some_iff`: reading a character gives a command
exactly if the command is spelled by that character.
-/

namespace Brainfuck

/-- one command of the machine -/
inductive Command where
  | right
  | left
  | increment
  | decrement
  | output
  | input
  | loopStart
  | loopEnd
deriving DecidableEq, Repr

namespace Command

/-- the character that spells the command -/
def char : Command → Char
  | right => '>'
  | left => '<'
  | increment => '+'
  | decrement => '-'
  | output => '.'
  | input => ','
  | loopStart => '['
  | loopEnd => ']'

/-- the command that a character spells -/
def ofChar? : Char → Option Command
  | '>' => some right
  | '<' => some left
  | '+' => some increment
  | '-' => some decrement
  | '.' => some output
  | ',' => some input
  | '[' => some loopStart
  | ']' => some loopEnd
  | _ => none

/-- a command that is no bracket -/
def IsPlain (c : Command) : Prop := c ≠ loopStart ∧ c ≠ loopEnd

instance (c : Command) : Decidable c.IsPlain := inferInstanceAs (Decidable (_ ∧ _))

/-- the command that a text of one character spells -/
def ofString? (s : String) : Option Command :=
  match s.toList with
  | [c] => ofChar? c
  | _ => none

@[simp] theorem ofChar?_char (c : Command) : ofChar? c.char = some c := by cases c <;> rfl

theorem ofChar?_eq_some_iff {a : Char} {c : Command} : ofChar? a = some c ↔ a = c.char := by
  constructor
  · intro h
    unfold ofChar? at h
    split at h <;> simp_all <;> subst h <;> rfl
  · rintro rfl
    exact ofChar?_char c

end Command

/-- the commands of a text, in order -/
def commandsOf (cs : List Char) : List Command := cs.filterMap Command.ofChar?

/-- the text of a sequence of commands -/
def spell (commands : List Command) : List Char := commands.map Command.char

/-- the text without its comments -/
def stripComments (cs : List Char) : List Char := cs.filter fun c => (Command.ofChar? c).isSome

@[simp] theorem commandsOf_spell (commands : List Command) : commandsOf (spell commands) = commands := by
  induction commands with
  | nil => rfl
  | cons c cs ih => simp_all [commandsOf, spell]

/-- what is left without the comments spells the commands -/
theorem stripComments_eq_spell (cs : List Char) : stripComments cs = spell (commandsOf cs) := by
  induction cs with
  | nil => rfl
  | cons a cs ih =>
    cases h : Command.ofChar? a with
    | none => simp_all [stripComments, spell, commandsOf]
    | some c =>
      have := Command.ofChar?_eq_some_iff.1 h
      simp_all [stripComments, spell, commandsOf]

end Brainfuck
