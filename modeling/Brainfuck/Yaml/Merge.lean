/-
Merge keys.

`flatten` replaces the merge keys of a mapping by the entries that they bring in, which come before the mapping's own.
The value of a merge key is a mapping or a sequence of mappings, of which the last comes first. Each of them is
flattened itself; since a merge key is taken out before its value is looked at, a mapping may even merge itself. The
default key loses its special meaning and is a text from then on.
-/
import Brainfuck.Yaml.Node

namespace Brainfuck.Yaml

/-- an operation on the nodes of a document -/
abbrev Editor (α : Type) := StateT (Array Node) (Except Error) α

namespace Editor

def tag (n : Nat) : Editor Tag := return ((← get)[n]?.map Node.tag).getD .other

def content (n : Nat) : Editor Content := return ((← get)[n]?.map Node.content).getD (.scalar [])

/-- the entries of a mapping; anything else is a mistake -/
def entries (n : Nat) : Editor (List (Nat × Nat)) := do
  match ← content n with
  | .mapping entries => return entries
  | _ => throw .malformed

def setEntries (n : Nat) (entries : List (Nat × Nat)) : Editor Unit :=
  modify fun nodes => nodes.modify n fun node => { node with content := .mapping entries }

/-- a default key becomes a text -/
def plainKey (n : Nat) : Editor Unit :=
  modify fun nodes => nodes.modify n fun node => if node.tag = .value then { node with tag := .str } else node

/-- the value of the first merge key of a mapping, whose entry is taken out -/
def takeMerge (n : Nat) : Editor (Option Nat) := do
  let nodes ← get
  let (before, rest) := (← entries n).span fun e => (nodes[e.1]?.map Node.tag) != some .merge
  match rest with
  | [] => return none
  | e :: after =>
    setEntries n (before ++ after)
    return some e.2

/-- the mappings that the value of a merge key stands for -/
def sources (n : Nat) : Editor (List Nat) := do
  match ← content n with
  | .mapping _ => return [n]
  | .sequence items => return items
  | .scalar _ => throw .malformed

/-- bring in the entries of the merge keys that are left, after those brought in so far -/
def flattenFrom : Nat → Nat → List (Nat × Nat) → Editor Unit
  | 0, _, _ => throw .malformed
  | fuel + 1, n, merged => do
    match ← takeMerge n with
    | none =>
      let own ← entries n
      own.forM fun e => plainKey e.1
      setEntries n (merged ++ own)
    | some value =>
      let found ← (← sources value).mapM fun source => do
        flattenFrom fuel source []
        entries source
      flattenFrom fuel n (merged ++ found.reverse.flatten)

/-- how many entries of a document have a merge key -/
def mergeCount (nodes : Array Node) : Nat :=
  nodes.foldl (fun count node =>
    match node.content with
    | .mapping entries => count + entries.countP fun e => (nodes[e.1]?.map Node.tag) = some .merge
    | _ => count) 0

/-- replace the merge keys of a mapping; each round takes one of the `merges` in the document out -/
def flatten (merges n : Nat) : Editor Unit := flattenFrom (merges + 1) n []

end Editor

end Brainfuck.Yaml
