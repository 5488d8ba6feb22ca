/-
Tags and directives.

A tag is written as a handle and a suffix, as a suffix alone, or in angle brackets; directives give handles a meaning.
`Tag.ofName` sorts the full names of tags: the twelve that YAML 1.1 gives a meaning here, and all others.
-/
import Brainfuck.Yaml.Cursor
import Brainfuck.Yaml.Error
import Brainfuck.Text.Utf8

namespace Brainfuck.Yaml

/-- what a value is -/
inductive Tag where
  | null
  | bool
  | int
  | float
  | binary
  | timestamp
  | omap
  | pairs
  | set
  | str
  | seq
  | map
  /-- the key under which another mapping is merged in -/
  | merge
  /-- the key of the default value -/
  | value
  | other
deriving DecidableEq, Repr

namespace Tag

def names : List (String × Tag) :=
  [("null", null), ("bool", bool), ("int", int), ("float", float), ("binary", binary), ("timestamp", timestamp),
    ("omap", omap), ("pairs", pairs), ("set", set), ("str", str), ("seq", seq), ("map", map), ("merge", merge),
    ("value", value)]

/-- what the names of the tags begin with -/
def namespaceName : String := "tag:yaml.org,2002:"

/-- the tag of a full name -/
def ofName (name : List Char) : Tag :=
  ((names.find? fun x => (namespaceName ++ x.1).toList = name).map Prod.snd).getD other

end Tag

/-- a tag as it is written: without a handle it is complete -/
structure WrittenTag where
  handle : Option (List Char)
  suffix : List Char
deriving DecidableEq, Repr

/-- a line that speaks about the document -/
inductive Directive where
  | version (major : Nat)
  | handle (name meaning : List Char)
  | reserved
deriving DecidableEq, Repr

/-- the meanings of handles -/
abbrev Handles := List (List Char × List Char)

/-- the meanings that need no directive -/
def defaultHandles : Handles := [("!".toList, "!".toList), ("!!".toList, Tag.namespaceName.toList)]

/-- the full name of a written tag; `none` if its handle has no meaning -/
def WrittenTag.name? (t : WrittenTag) (handles : Handles) : Option (List Char) :=
  match t.handle with
  | none => some t.suffix
  | some h => (handles.lookup h).map (· ++ t.suffix)

namespace Written

/-- a character of a tag's name, the percent sign of an escape included -/
def isUriChar (c : Char) : Bool := c.isAlphanum || "-;/?:@&=+$,_.!~*'()[]%".toList.contains c

/-- the bytes of escapes that follow one another -/
def escapedBytes : Nat → Cursor → Except Error (List UInt8 × Cursor)
  | 0, c => .ok ([], c)
  | fuel + 1, c =>
    if c.peek != '%' then .ok ([], c)
    else
      let ds := (c.next.rest.take 2).filterMap fun ch => if ch.toNat < 128 then Numeral.digitIn? 16 ch else none
      if ds.length < 2 then .error .malformed
      else do
        let (bytes, c) ← escapedBytes fuel (c.advance 3)
        return (UInt8.ofNat (Numeral.value 16 ds) :: bytes, c)

/-- the characters of a tag's name from here on -/
def uriChars : Nat → Cursor → Except Error (List Char × Cursor)
  | 0, c => .ok ([], c)
  | fuel + 1, c =>
    if !isUriChar c.peek then .ok ([], c)
    else if c.peek = '%' then do
      let (bytes, c) ← escapedBytes c.rest.length c
      match Utf8.decode bytes with
      | .error _ => throw .malformed
      | .ok chars =>
        let (rest, c) ← uriChars fuel c
        return (chars ++ rest, c)
    else do
      let (rest, c') ← uriChars fuel c.next
      return (c.peek :: rest, c')

/-- the name of a tag, or what a handle means -/
def uri (c : Cursor) : Except Error (List Char × Cursor) := do
  let (chars, c) ← uriChars (c.rest.length + 1) c
  if chars.isEmpty then throw .malformed
  return (chars, c)

/-- a handle: one exclamation mark, or a name between two -/
def handle (c : Cursor) : Except Error (List Char × Cursor) := do
  if c.peek != '!' then throw .malformed
  if c.peekAt 1 = ' ' then return (['!'], c.next)
  let (name, after) := c.next.spanWhile isNameChar
  if after.peek != '!' then throw .malformed
  return ('!' :: name ++ ['!'], after.next)

/-- a tag, from its exclamation mark on -/
def tag (c : Cursor) : Except Error (WrittenTag × Cursor) := do
  let (t, c) ←
    if c.peekAt 1 = '<' then do
      let (suffix, c) ← uri (c.advance 2)
      if c.peek != '>' then throw .malformed
      pure (⟨none, suffix⟩, c.next)
    else if isGap (c.peekAt 1) then pure (⟨none, ['!']⟩, c.next)
    else if (c.next.rest.takeWhile fun ch => !endsWord ch).contains '!' then do
      let (h, c) ← handle c
      let (suffix, c) ← uri c
      pure (⟨some h, suffix⟩, c)
    else do
      let (suffix, c) ← uri c.next
      pure (⟨some ['!'], suffix⟩, c)
  if !endsWord c.peek then throw .malformed
  return (t, c)

/-- the digits of a version number -/
def versionPart (c : Cursor) : Except Error (Nat × Cursor) :=
  let (ds, c) := c.spanWhile Char.isDigit
  if ds.isEmpty then .error .malformed
  else if Numeral.digitLimit < ds.length then .error (.number (.tooLong ds.length))
  else .ok (Numeral.value 10 (ds.filterMap digit?), c)

/-- what a directive of a name says -/
def directiveBody (name : String) (c : Cursor) : Except Error (Directive × Cursor) := do
  match name with
  | "YAML" =>
    let (major, c) ← versionPart (c.skipWhile (· == ' '))
    if c.peek != '.' then throw .malformed
    let (_, c) ← versionPart c.next
    if !endsWord c.peek then throw .malformed
    return (.version major, c)
  | "TAG" =>
    let (h, c) ← handle (c.skipWhile (· == ' '))
    if c.peek != ' ' then throw .malformed
    let (meaning, c) ← uri (c.skipWhile (· == ' '))
    if !endsWord c.peek then throw .malformed
    return (.handle h meaning, c)
  | _ => return (.reserved, c.skipWhile fun ch => !endsLine ch)

/-- a directive, from its percent sign on, with its line -/
def directive (c : Cursor) : Except Error (Directive × Cursor) := do
  let (name, c) := c.next.spanWhile isNameChar
  if name.isEmpty || !endsWord c.peek then throw .malformed
  let (d, c) ← directiveBody (String.ofList name) c
  let c := (c.skipWhile (· == ' ')).skipComment
  if !endsLine c.peek then throw .malformed
  return (d, c.lineBreak.2)

end Written

end Brainfuck.Yaml
