/-
Brackets: which loop end belongs to which loop start.

`Bracket.link` reads a command sequence once and keeps the indices of the loops that are still open, innermost first. A
loop end takes the innermost of them as its partner; one that finds none is reported by its index. `Balanced` is the
grammar of the sequences in which everything closes.
-/
import Brainfuck.Command

namespace Brainfuck

/-- the sequences in which every bracket has its partner -/
inductive Balanced : List Command → Prop where
  | nil : Balanced []
  | plain {c : Command} {rest : List Command} : c.IsPlain → Balanced rest → Balanced (c :: rest)
  | loop {body rest : List Command} :
      Balanced body → Balanced rest → Balanced (.loopStart :: body ++ .loopEnd :: rest)

namespace Bracket

/-- what is known of the brackets after a part of the sequence -/
structure Links where
  /-- for each index the index of the partner, if it has been met -/
  table : Array (Option Nat)
  /-- the loop starts that are still open, innermost first -/
  pending : List Nat
deriving DecidableEq, Repr

namespace Links

/-- no bracket read yet, in a sequence of a given length -/
def empty (length : Nat) : Links := ⟨Array.replicate length none, []⟩

/-- make two indices each other's partner -/
def pair (table : Array (Option Nat)) (start stop : Nat) : Array (Option Nat) :=
  (table.setIfInBounds start (some stop)).setIfInBounds stop (some start)

/-- read the command at an index; a loop end with no open loop fails -/
def read (l : Links) (index : Nat) : Command → Option Links
  | .loopStart => some { l with pending := index :: l.pending }
  | .loopEnd =>
    match l.pending with
    | [] => none
    | start :: pending => some ⟨pair l.table start index, pending⟩
  | _ => some l

end Links

/-- read the commands from an index on; the failure is the index of the loop end without partner -/
def linkFrom (index : Nat) (l : Links) : List Command → Except Nat Links
  | [] => .ok l
  | c :: rest =>
    match l.read index c with
    | none => .error index
    | some l => linkFrom (index + 1) l rest

/-- the links of a whole sequence -/
def link (commands : List Command) : Except Nat Links := linkFrom 0 (.empty commands.length) commands

theorem size_pair (table : Array (Option Nat)) (start stop : Nat) :
    (Links.pair table start stop).size = table.size := by
  simp [Links.pair]

theorem size_table_of_read {l l' : Links} {index : Nat} {c : Command} (h : l.read index c = some l') :
    l'.table.size = l.table.size := by
  unfold Links.read at h
  repeat' split at h
  all_goals first
    | (cases h; done)
    | (simp only [Option.some.injEq] at h; subst h; simp [size_pair])

theorem size_table_of_linkFrom {index : Nat} {l l' : Links} {commands : List Command}
    (h : linkFrom index l commands = .ok l') : l'.table.size = l.table.size := by
  induction commands generalizing index l with
  | nil => simp only [linkFrom, Except.ok.injEq] at h; rw [h]
  | cons c rest ih =>
    simp only [linkFrom] at h
    split at h
    · cases h
    · rename_i hr
      rw [ih h, size_table_of_read hr]

/-- the table has one entry for each command -/
theorem size_table_of_link {l : Links} {commands : List Command} (h : link commands = .ok l) :
    l.table.size = commands.length := by
  rw [size_table_of_linkFrom h]
  simp [Links.empty]

end Bracket

end Brainfuck
