/-
The nodes of a YAML document.

A `Document` numbers its nodes, and collections refer to the nodes in them by number: an alias gives the number of the
node of its anchor, so that a node may stand in several places, within itself too. `Document.ofTokens` reads the
tokens of a text by the grammar of YAML: block and flow collections, entries whose key or value is left out, anchors
and aliases. A text holds one document or none.
-/
import Brainfuck.Yaml.Resolution
import Brainfuck.Yaml.Token

namespace Brainfuck.Yaml

/-- what a node holds; nodes in it are given by number -/
inductive Content where
  | scalar (text : Text)
  | sequence (items : List Nat)
  | mapping (entries : List (Nat × Nat))
deriving DecidableEq, Repr

/-- a node of a document -/
structure Node where
  tag : Tag
  content : Content
deriving DecidableEq, Repr

/-- numbered nodes, and the number of the outermost one -/
structure Document where
  nodes : Array Node
  root : Nat
deriving DecidableEq, Repr

namespace Document

/-- tokens that are left, what is wrong behind them, and the nodes and anchors so far -/
structure Progress where
  tokens : List Token
  mistake : Option Error
  nodes : Array Node
  anchors : List (List Char × Nat)

/-- a reader of some of the tokens -/
abbrev Reader (α : Type) := StateT Progress (Except Error) α

/-- the next token -/
def peek : Reader Token := do
  let p ← get
  match p.tokens with
  | t :: _ => return t
  | [] => throw (p.mistake.getD .malformed)

/-- go past the next token -/
def skip : Reader Unit := modify fun p => { p with tokens := p.tokens.tail }

/-- go past the next token if it is this one -/
def accept (t : Token) : Reader Bool := do
  if (← peek) = t then
    skip
    return true
  else return false

def expect (t : Token) : Reader Unit := do
  if !(← accept t) then throw .malformed

/-- the next token is one of these -/
def next (ts : List Token) : Reader Bool := return ts.contains (← peek)

/-- the node of an alias -/
def aliased (name : List Char) : Reader Nat := do
  match (← get).anchors.lookup name with
  | none => throw .malformed
  | some n => return n

/-- a new node, which its anchor stands for from here on -/
def add (anchor : Option (List Char)) (n : Node) : Reader Nat :=
  modifyGet fun p =>
    let number := p.nodes.size
    (number, { p with
      nodes := p.nodes.push n
      anchors := (anchor.map (·, number)).toList ++ p.anchors })

/-- a new node for an entry that is left out -/
def addEmpty : Reader Nat := add none ⟨.null, .scalar []⟩

/-- a new collection, which may hold itself: its node is there before those in it -/
def addCollection (anchor : Option (List Char)) (tag : Tag) (content : Reader Content) : Reader Nat := do
  let number ← add anchor ⟨tag, .scalar []⟩
  let content ← content
  modify fun p => { p with nodes := p.nodes.setIfInBounds number ⟨tag, content⟩ }
  return number

/-- an anchor and a tag before a node, in either order -/
def properties : Reader (Option (List Char) × Option WrittenTag) := do
  match ← peek with
  | .anchor name =>
    skip
    match ← peek with
    | .tag t =>
      skip
      return (some name, some t)
    | _ => return (some name, none)
  | .tag t =>
    skip
    match ← peek with
    | .anchor name =>
      skip
      return (some name, some t)
    | _ => return (none, some t)
  | _ => return (none, none)

/-- the full name of a tag, or `none` for no tag and for the one that says nothing -/
def tagName (handles : Handles) : Option WrittenTag → Reader (Option (List Char) × Bool)
  | none => return (none, false)
  | some t =>
    match t.name? handles with
    | none => throw .malformed
    | some ['!'] => return (none, true)
    | some name => return (some name, true)

mutual

/-- a node; `block` allows block collections, and `indentless` a sequence that is not indented -/
def node (handles : Handles) (block indentless : Bool) : Nat → Reader Nat
  | 0 => throw .malformed
  | fuel + 1 => do
    if let .alias name ← peek then
      skip
      return ← aliased name
    let (anchor, written) ← properties
    let (name, isTagged) ← tagName handles written
    let first ← peek
    let anchors := (← get).anchors
    if anchor.any fun a => (anchors.lookup a).isSome then throw .malformed
    let sequenceOf (items : Reader (List Nat)) : Reader Nat :=
      addCollection anchor ((name.map Tag.ofName).getD .seq) (.sequence <$> items)
    let mappingOf (entries : Reader (List (Nat × Nat))) : Reader Nat :=
      addCollection anchor ((name.map Tag.ofName).getD .map) (.mapping <$> entries)
    match first with
    | .scalar text plain =>
      skip
      let tag := match name with
        | some name => Tag.ofName name
        | none => if plain || isTagged then Tag.ofPlain text else .str
      add anchor ⟨tag, .scalar text⟩
    | .flowSequenceStart =>
      skip
      sequenceOf (flowItems handles true fuel)
    | .flowMappingStart =>
      skip
      mappingOf (flowEntries handles true fuel)
    | .blockEntry =>
      if indentless then sequenceOf (indentlessItems handles fuel)
      else emptyOr anchor name isTagged
    | .blockSequenceStart =>
      if block then
        skip
        sequenceOf (blockItems handles fuel)
      else emptyOr anchor name isTagged
    | .blockMappingStart =>
      if block then
        skip
        mappingOf (blockEntries handles fuel)
      else emptyOr anchor name isTagged
    | _ => emptyOr anchor name isTagged

/-- the empty scalar after an anchor or a tag -/
def emptyOr (anchor name : Option (List Char)) (isTagged : Bool) : Reader Nat := do
  if anchor.isNone && !isTagged then throw .malformed
  add anchor ⟨(name.map Tag.ofName).getD .null, .scalar []⟩

/-- a node, unless one of these tokens shows that it is left out -/
def nodeUnless (handles : Handles) (block indentless : Bool) (ends : List Token) : Nat → Reader Nat
  | 0 => throw .malformed
  | fuel + 1 => do if ← next ends then addEmpty else node handles block indentless fuel

/-- the items of an indented sequence -/
def blockItems (handles : Handles) : Nat → Reader (List Nat)
  | 0 => throw .malformed
  | fuel + 1 => do
    if ← accept .blockEntry then
      let item ← nodeUnless handles true false [.blockEntry, .blockEnd] fuel
      return item :: (← blockItems handles fuel)
    else
      expect .blockEnd
      return []

/-- the items of a sequence that is indented no further than the key before it -/
def indentlessItems (handles : Handles) : Nat → Reader (List Nat)
  | 0 => throw .malformed
  | fuel + 1 => do
    if ← accept .blockEntry then
      let item ← nodeUnless handles true false [.blockEntry, .key, .value, .blockEnd] fuel
      return item :: (← indentlessItems handles fuel)
    else return []

/-- the entries of an indented mapping -/
def blockEntries (handles : Handles) : Nat → Reader (List (Nat × Nat))
  | 0 => throw .malformed
  | fuel + 1 => do
    if ← accept .key then
      let ends := [Token.key, .value, .blockEnd]
      let key ← nodeUnless handles true true ends fuel
      let value ← if ← accept .value then nodeUnless handles true true ends fuel else addEmpty
      return (key, value) :: (← blockEntries handles fuel)
    else
      expect .blockEnd
      return []

/-- the items of a sequence in brackets; one with a key mark is a mapping of one entry -/
def flowItems (handles : Handles) (first : Bool) : Nat → Reader (List Nat)
  | 0 => throw .malformed
  | fuel + 1 => do
    if ← accept .flowSequenceEnd then return []
    if !first then expect .flowEntry
    if ← accept .key then
      let key ← nodeUnless handles false false [.value, .flowEntry, .flowSequenceEnd] fuel
      let value ←
        if ← accept .value then nodeUnless handles false false [.flowEntry, .flowSequenceEnd] fuel else addEmpty
      let pair ← add none ⟨.map, .mapping [(key, value)]⟩
      return pair :: (← flowItems handles false fuel)
    else if ← accept .flowSequenceEnd then return []
    else
      let item ← node handles false false fuel
      return item :: (← flowItems handles false fuel)

/-- the entries of a mapping in braces -/
def flowEntries (handles : Handles) (first : Bool) : Nat → Reader (List (Nat × Nat))
  | 0 => throw .malformed
  | fuel + 1 => do
    if ← accept .flowMappingEnd then return []
    if !first then expect .flowEntry
    if ← accept .key then
      let key ← nodeUnless handles false false [.value, .flowEntry, .flowMappingEnd] fuel
      let value ←
        if ← accept .value then nodeUnless handles false false [.flowEntry, .flowMappingEnd] fuel else addEmpty
      return (key, value) :: (← flowEntries handles false fuel)
    else if ← accept .flowMappingEnd then return []
    else
      let key ← node handles false false fuel
      let value ← addEmpty
      return (key, value) :: (← flowEntries handles false fuel)

end

/-- the directives before a document, as the meanings of handles -/
def directives : Nat → Bool → Handles → Reader Handles
  | 0, _, _ => throw .malformed
  | fuel + 1, versioned, handles => do
    match ← peek with
    | .directive (.version major) =>
      skip
      if versioned || major != 1 then throw .malformed
      directives fuel true handles
    | .directive (.handle name meaning) =>
      skip
      if (handles.lookup name).isSome then throw .malformed
      directives fuel versioned ((name, meaning) :: handles)
    | .directive .reserved =>
      skip
      directives fuel versioned handles
    | _ => return handles

/-- go past marks of a document's end -/
def skipEnds : Nat → Reader Unit
  | 0 => throw .malformed
  | fuel + 1 => do if ← accept .documentEnd then skipEnds fuel

/-- a document with a mark of its start -/
def explicitDocument (fuel : Nat) : Reader (Option Nat) := do
  skipEnds fuel
  if ← next [.streamEnd] then return none
  let handles ← directives fuel false []
  expect .documentStart
  match ← peek with
  | .directive _ | .documentStart | .documentEnd | .streamEnd => some <$> addEmpty
  | _ => some <$> node (handles ++ defaultHandles) true false fuel

/-- the only document of a text, if there is one; the directives of another one are still looked at -/
def only (fuel : Nat) : Reader (Option Nat) := do
  let n ← match ← peek with
    | .directive _ | .documentStart | .streamEnd => explicitDocument fuel
    | _ => some <$> node defaultHandles true false fuel
  skipEnds fuel
  if !(← accept .streamEnd) then
    let _ ← directives fuel false []
    throw .malformed
  return n

/-- the document that tokens spell, with the mistake behind them -/
def ofTokens (tokens : List Token) (mistake : Option Error) : Except Error (Option Document) := do
  let (root, p) ← (only (4 * tokens.length + 8)).run ⟨tokens, mistake, #[], []⟩
  return root.map fun n => ⟨p.nodes, n⟩

end Document

end Brainfuck.Yaml
