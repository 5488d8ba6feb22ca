/-
From the nodes of a document to values.

A scalar gets its value at once, and a collection is empty at first. It is filled when all collections that were met
before it are full: `assemble` goes through the document in breadth, and of two mistakes that come to light here the one
nearer to the outside wins. Each node gives one value, in all the places where it stands.
-/
import Brainfuck.Value.SetOrder
import Brainfuck.Yaml.Merge
import Brainfuck.Yaml.ScalarValue

namespace Brainfuck.Yaml

/-- what a node gives; what is in a collection is given by the number of its node -/
inductive Part where
  | value (v : Value)
  | list (items : List Nat)
  /-- an ordered mapping: keys with their values -/
  | pairs (items : List (Nat × Nat))
  | set (keys : List Value)
  | mapping (entries : List (Value × Nat))

namespace Part

/-- the collection that a tag asks for, without what is in it -/
def emptyOf? : Tag → Option Part
  | .seq => some (.list [])
  | .omap | .pairs => some (.pairs [])
  | .set => some (.set [])
  | .map => some (.mapping [])
  | _ => none

/-- the value of what can be a key -/
def key? : Part → Option Value
  | .value v => some v
  | _ => none

/-- the entries with a key set to a node; a new key comes last -/
def insert (key : Value) (n : Nat) : List (Value × Nat) → List (Value × Nat)
  | [] => [(key, n)]
  | e :: es => if e.1.sameKey key then (e.1, n) :: es else e :: insert key n es

end Part

/-- a document on the way to values -/
structure Assembly where
  nodes : Array Node
  /-- what the nodes give that have been met, by their numbers -/
  parts : Array (Option Part)
  /-- the collections that have been met, in the order in which they are filled -/
  queue : Array Nat

namespace Assembly

/-- an operation on a document on the way to values -/
abbrev Step (α : Type) := StateT Assembly (Except Error) α

/-- an operation on the nodes alone -/
def edit {α : Type} (e : Editor α) : Step α := do
  let x ← get
  let (a, nodes) ← e.run x.nodes
  set { x with nodes := nodes }
  return a

def setPart (n : Nat) (p : Part) : Step Unit := modify fun x => { x with parts := x.parts.setIfInBounds n (some p) }

/-- the text of a node; that of a mapping is the text under its first default key -/
def text : Nat → Nat → Step Text
  | 0, _ => throw .endless
  | fuel + 1, n => do
    match ← edit (Editor.content n) with
    | .scalar t => return t
    | .sequence _ => throw .malformed
    | .mapping entries =>
      let nodes := (← get).nodes
      match entries.find? fun e => (nodes[e.1]?.map Node.tag) = some .value with
      | some e => text fuel e.2
      | none => throw .malformed

/-- the value of a node under the tag of a scalar -/
def scalar (n : Nat) : Step Value := do
  let node ← edit (return (← get)[n]?.getD ⟨.other, .scalar []⟩)
  let value (t : Text) : Step Value := liftM (scalarValue node.tag t)
  match node.tag, node.content with
  | .merge, _ | .value, _ | .other, _ => throw .malformed
  | .timestamp, .mapping _ =>
    let _ ← text ((← get).nodes.size + 1) n
    throw .mappingAsMoment
  | _, _ => value (← text ((← get).nodes.size + 1) n)

/-- meet a node -/
def meet (n : Nat) : Step Part := do
  if let some p := (← get).parts[n]?.join then return p
  match Part.emptyOf? (← edit (Editor.tag n)) with
  | some p =>
    setPart n p
    modify fun x => { x with queue := x.queue.push n }
    return p
  | none =>
    let p := Part.value (← scalar n)
    setPart n p
    return p

/-- meet a key and its value -/
def entry (es : List (Value × Nat)) (e : Nat × Nat) : Step (List (Value × Nat)) := do
  let some key := (← meet e.1).key? | throw .malformed
  let _ ← meet e.2
  return Part.insert key e.2 es

/-- meet the entries of a mapping, after its merge keys have been replaced -/
def mapping (merges n : Nat) : Step (List (Value × Nat)) := do
  edit (Editor.flatten merges n)
  (← edit (Editor.entries n)).foldlM entry []

/-- meet an item of an ordered mapping: a mapping of one entry -/
def pair (n : Nat) : Step (Nat × Nat) := do
  match ← edit (Editor.entries n) with
  | [e] =>
    let _ ← meet e.1
    let _ ← meet e.2
    return e
  | _ => throw .malformed

/-- meet the items of a sequence -/
def items {α : Type} (n : Nat) (item : Nat → Step α) : Step (List α) := do
  match ← edit (Editor.content n) with
  | .sequence ns => ns.mapM item
  | _ => throw .malformed

/-- fill a collection -/
def fill (merges n : Nat) : Step Unit := do
  match ← edit (Editor.tag n) with
  | .seq => setPart n (.list (← items n fun i => (fun _ => i) <$> meet i))
  | .omap | .pairs => setPart n (.pairs (← items n pair))
  | .set => setPart n (.set (SetOrder.order ((← mapping merges n).map Prod.fst)))
  | _ => setPart n (.mapping (← mapping merges n))

/-- fill the collections from a place of the queue on -/
def fillFrom (merges : Nat) : Nat → Nat → Step Unit
  | 0, _ => return
  | fuel + 1, place => do
    match (← get).queue[place]? with
    | none => return
    | some n =>
      fill merges n
      fillFrom merges fuel (place + 1)

end Assembly

/-- what the nodes of a document give, by their numbers -/
def Document.assemble (d : Document) : Except Error (Array (Option Part)) := do
  let size := d.nodes.size
  let work : Assembly.Step Unit := do
    let _ ← Assembly.meet d.root
    Assembly.fillFrom (Editor.mergeCount d.nodes) size 0
  let (_, x) ← work.run ⟨d.nodes, Array.replicate size none, #[]⟩
  return x.parts

end Brainfuck.Yaml
