/-
Files and directories, and how a path finds them.

A path is resolved name by name from the working directory, or from the root if it starts with a slash. Empty names and
`.` stay in place, `..` goes up (and stays at the root), and every name but the last must be a directory. Reading needs
a file; writing replaces a file or makes a new one in a directory that exists. A name or a path of too many bytes is
refused where it is met, and a path that has no bytes, or a NUL among them, before anything is looked up.

A name is a text, in which an escape stands for a byte that is no UTF-8. What is written to a place may be more than the
device there takes; such a place has a `Limit`.
-/
import Brainfuck.Stream
import Brainfuck.Text.Encoding
import Brainfuck.Text.Lines
import Brainfuck.Text.Quoted

namespace Brainfuck

/-- what stands at a location -/
inductive Entry where
  | file (bytes : List UInt8)
  | directory
deriving DecidableEq, Repr

/-- a location: the names that lead to it from the root -/
abbrev Location := List Text

/-- names as they are written where an escape cannot stand -/
instance : Coe Location (List String) := ⟨List.map Text.toString⟩

/-- what stands at which location, and the working directory; the root is a directory -/
structure FileTree where
  entries : List (Location × Entry)
  cwd : Location
  /-- the places where the device takes only so much -/
  limits : List (Location × Limit) := []
  /-- how deep the lists and mappings of a JSON document may be nested for the stack to suffice when a file is read -/
  nesting : Nat := 991

/-- why a path cannot be used -/
inductive PathFlaw where
  | notFound
  | isDirectory
  | notDirectory
  /-- a name or the whole path has too many bytes -/
  | tooLong
  /-- the path has no bytes, or a NUL among them, so it is no path at all -/
  | nulByte
deriving DecidableEq, Repr

structure PathError where
  flaw : PathFlaw
  path : Text
deriving DecidableEq, Repr

namespace PathError

/-- a flaw that the file system finds, and not one of the path's spelling -/
def isSystem (e : PathError) : Bool := e.flaw != .nulByte

def message (e : PathError) : String :=
  let quoted := Quoted.text e.path
  match e.flaw with
  | .notFound => s!"[Errno 2] No such file or directory: {quoted}"
  | .isDirectory => s!"[Errno 21] Is a directory: {quoted}"
  | .notDirectory => s!"[Errno 20] Not a directory: {quoted}"
  | .tooLong => s!"[Errno 36] File name too long: {quoted}"
  | .nulByte =>
    match e.path.encodeName with
    | .error flaw => flaw.message
    | .ok _ => "embedded null byte"

end PathError

namespace FileTree

/-- nothing but the root, and the device that is always full -/
def empty : FileTree where
  entries := [(["dev"], .directory), (["dev", "full"], .file [])]
  cwd := []
  limits := [(["dev", "full"], ⟨0, 4096, .noSpace⟩)]

/-- what stands at a location -/
def at? (t : FileTree) (l : Location) : Option Entry := if l = [] then some .directory else t.entries.lookup l

/-- the tree with an entry set -/
def set (t : FileTree) (l : Location) (e : Entry) : FileTree :=
  { t with entries := (l, e) :: t.entries.filter fun x => x.1 != l }

/-- the tree with a directory at a location, unless something is there -/
def addDirectory (t : FileTree) (l : Location) : FileTree :=
  if (t.at? l).isSome then t else t.set l .directory

/-- the tree with an entry at a location, and directories on the way there -/
def add (t : FileTree) (l : Location) (e : Entry) : FileTree :=
  ((List.range l.length).foldl (fun t n => t.addDirectory (l.take n)) t).set l e

/-- the names of a path; an empty one stands before, between and after slashes -/
def names (path : Text) : List Text := cutAt (.char '/') path

/-- the location that a name leads to -/
def down (l : Location) (name : Text) : Location :=
  if name = [] || name = "." then l
  else if name = ".." then l.dropLast
  else l ++ [name]

/-- the most bytes of a name -/
def nameLimit : Nat := 255

/-- a path has fewer bytes -/
def pathLimit : Nat := 4096

/-- what stands under a name in a directory, if the name is short enough -/
def look (t : FileTree) (l : Location) (name : Text) : Except PathFlaw (Option Entry) :=
  if nameLimit < name.nameSize then .error .tooLong else .ok (t.at? (down l name))

/-- the directory that names lead to -/
def walk (t : FileTree) (l : Location) : List Text → Except PathFlaw Location
  | [] => .ok l
  | name :: rest => do
    match ← t.look l name with
    | none => .error .notFound
    | some (.file _) => .error .notDirectory
    | some .directory => t.walk (down l name) rest

/-- where a path starts: the root for one with a leading slash -/
def start (t : FileTree) (path : Text) : Location := if path.head? = some (.char '/') then [] else t.cwd

/-- a path that can lead somewhere: it is not empty, not too long, and has bytes that hold no NUL -/
def checkPath (path : Text) : Except PathFlaw Unit :=
  match path.encodeName with
  | .error _ => .error .nulByte
  | .ok bytes =>
    if 0 ∈ bytes then .error .nulByte
    else if bytes = [] then .error .notFound
    else if pathLimit ≤ bytes.length then .error .tooLong
    else .ok ()

/-- the bytes of the file at a path -/
def read (t : FileTree) (path : Text) : Except PathError (List UInt8) := Except.mapError (⟨·, path⟩) do
  checkPath path
  let parent ← t.walk (t.start path) (names path).dropLast
  match ← t.look parent ((names path).getLastD []) with
  | none => throw .notFound
  | some .directory => throw .isDirectory
  | some (.file bytes) => return bytes

/-- the location of the file that writing to a path makes or replaces; slashes at the end ask for a directory -/
def target (t : FileTree) (path : Text) : Except PathError Location := Except.mapError (⟨·, path⟩) do
  checkPath path
  let asked := (names path).reverse.dropWhile (· = [])
  let parent ← t.walk (t.start path) asked.tail.reverse
  if path.getLast? = some (.char '/') then throw .isDirectory
  if (← t.look parent (asked.headD [])) = some .directory then throw .isDirectory
  return down parent (asked.headD [])

/-- the bytes of the file at a location -/
def fileAt? (t : FileTree) (l : Location) : Option (List UInt8) :=
  match t.at? l with
  | some (.file bytes) => some bytes
  | _ => none

/-- the bytes of the file of a name in a directory, or in the nearest one above it that holds such a file -/
def findUpward (t : FileTree) (name : Text) (l : Location) : Option (List UInt8) :=
  (List.range (l.length + 1)).reverse.findSome? fun n => t.fileAt? (l.take n ++ [name])

/-- the limit of what may be written at a location, if there is one -/
def limit? (t : FileTree) (l : Location) : Option Limit := t.limits.lookup l

theorem at?_set_self (t : FileTree) {l : Location} (e : Entry) (h : l ≠ []) : (t.set l e).at? l = some e := by
  simp [at?, set, h]

end FileTree

end Brainfuck
