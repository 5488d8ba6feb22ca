/-
Values with what is in them.

`Tree.value` shows a node of an assembled document as it stands alone: where a collection holds itself, it is shown as a
recurrence from within. `Tree.opened` shows each value of a mapping as it stands alone.
-/
import Brainfuck.Yaml.Assembly

namespace Brainfuck.Yaml

/-- what the nodes of a document give, by their numbers, and the number of the outermost one -/
structure Tree where
  parts : Array (Option Part)
  root : Nat

namespace Tree

/-- the document that holds nothing -/
def null : Tree := ⟨#[some (.value .null)], 0⟩

def part (t : Tree) (n : Nat) : Part := t.parts[n]?.join.getD (.value .null)

/-- the values that are known so far, of nodes that hold no collection around them -/
abbrev Known (α : Type) := StateM (Array (Option Value)) α

/-- the value of a node within the collections of a path, and whether it holds none of them -/
def unroll (t : Tree) : Nat → List Nat → Nat → Known (Value × Bool)
  | 0, _, _ => return (.null, false)
  | fuel + 1, path, n => do
    let inside := unroll t fuel (n :: path)
    let keep (v : Value) (isWhole : Bool) : Known (Value × Bool) := do
      if isWhole then modify (·.setIfInBounds n (some v))
      return (v, isWhole)
    if let some v := (← get)[n]?.join then return (v, true)
    match t.part n with
    | .value v => return (v, true)
    | .set keys => return (.set keys, true)
    | .list items =>
      if path.contains n then return (.recurrence false, false)
      let vs ← items.mapM inside
      keep (.list (vs.map Prod.fst)) (vs.all Prod.snd)
    | .pairs items =>
      if path.contains n then return (.recurrence false, false)
      let ks ← items.mapM fun e => do return (← inside e.1, ← inside e.2)
      keep (.list (ks.map fun (k, v) => .pair k.1 v.1)) (ks.all fun (k, v) => k.2 && v.2)
    | .mapping entries =>
      if path.contains n then return (.recurrence true, false)
      let es ← entries.mapM fun (k, v) => do return (k, ← inside v)
      keep (.mapping (es.map fun (k, v) => (k, v.1))) (es.all fun (_, v) => v.2)

/-- the value of a node as it stands alone -/
def alone (t : Tree) (n : Nat) : Known Value := Prod.fst <$> t.unroll (t.parts.size + 1) [] n

/-- the value of a node; the values in a mapping stand alone -/
def opened (t : Tree) (n : Nat) : Value :=
  let value : Known Value :=
    match t.part n with
    | .mapping entries => .mapping <$> entries.mapM fun (k, v) => do return (k, ← t.alone v)
    | _ => t.alone n
  (value.run (Array.replicate t.parts.size none)).1

/-- the value of the whole document -/
def whole (t : Tree) : Value := t.opened t.root

/-- the value under a key of the document -/
def under? (t : Tree) (key : Value) : Option Value :=
  match t.part t.root with
  | .mapping entries => (entries.find? fun e => e.1.sameKey key).map fun e => t.opened e.2
  | _ => none

end Tree

end Brainfuck.Yaml
