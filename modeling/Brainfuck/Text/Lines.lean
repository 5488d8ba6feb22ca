/-
Line ends, and pieces of a text between separators.

Text files are read with universal line ends: `CR LF` and a lone `CR` each stand for one line feed.
-/

namespace Brainfuck

/-- the text with each of the three line ends written as a line feed -/
def universalLines : List Char → List Char
  | [] => []
  | '\r' :: '\n' :: cs => '\n' :: universalLines cs
  | c :: cs => (if c = '\r' then '\n' else c) :: universalLines cs

/-- the lines of a text, without their line feeds; a last line without one counts too -/
def lines (cs : List Char) : List (List Char) := go [] cs
where
  /-- the line read so far is kept reversed -/
  go (line : List Char) : List Char → List (List Char)
    | [] => if line.isEmpty then [] else [line.reverse]
    | c :: cs => if c = '\n' then line.reverse :: go [] cs else go (c :: line) cs

/-- the text without the line feed that may stand at its end -/
def withoutLineFeed (cs : List Char) : List Char := if cs.getLast? = some '\n' then cs.dropLast else cs

/-- the pieces between the separators, empty ones too -/
def cutAt {α : Type} [DecidableEq α] (separator : α) : List α → List (List α)
  | [] => [[]]
  | c :: cs =>
    match cutAt separator cs with
    | [] => [[c]]
    | piece :: pieces => if c = separator then [] :: piece :: pieces else (c :: piece) :: pieces

theorem exists_cons_cutAt {α : Type} [DecidableEq α] (separator : α) (cs : List α) :
    ∃ piece pieces, cutAt separator cs = piece :: pieces := by
  cases cs with
  | nil => exact ⟨_, _, rfl⟩
  | cons c cs =>
    rw [cutAt]
    split
    · exact ⟨_, _, rfl⟩
    · split <;> exact ⟨_, _, rfl⟩

end Brainfuck
