/-
Files of environment variables.

Such a file has a statement on each line: a name, or a name and a value behind an equals sign. A value is plain up to a
comment, or quoted and then free to go on over lines. `EnvFile.parse` reads all statements and says in which lines those
begin that are none. References to other variables in values are replaced (`expand`), and `Environment.extend` adds the
variables to an environment that does not have them yet.
-/
import Brainfuck.Config.Environment
import Brainfuck.Text.Lines

namespace Brainfuck

namespace EnvFile

/-- a statement of the file -/
inductive Statement where
  /-- nothing but blanks or a comment -/
  | blank
  /-- a name, and a value if an equals sign follows -/
  | variable (name : List Char) (value : Option (List Char))
  | flawed
deriving DecidableEq, Repr

/-- a blank that ends no line -/
def isInlineBlank (c : Char) : Bool := isBlank c && c != '\n' && c != '\r'

def skipBlanks (cs : List Char) : List Char := cs.dropWhile isInlineBlank

/-- what follows the line end that is next, if nothing stands before it -/
def lineEnd? (cs : List Char) : Option (List Char) :=
  match skipBlanks cs with
  | [] => some []
  | '\n' :: rest => some rest
  | _ => none

/-- what follows this line -/
def afterLine (cs : List Char) : List Char := (cs.dropWhile (· != '\n')).tail

/-- what follows a comment, if one is next -/
def skipComment (cs : List Char) : List Char :=
  match skipBlanks cs with
  | '#' :: rest => rest.dropWhile (· != '\n')
  | _ => cs

/-- what follows the word `export`, which may lead a statement -/
def skipExport (cs : List Char) : List Char :=
  let word := "export".toList
  let rest := cs.drop word.length
  if word.isPrefixOf cs && rest.head?.any isInlineBlank then skipBlanks rest else cs

/-- a name, plain or in single quotes -/
def name? (cs : List Char) : Option (List Char × List Char) :=
  match cs with
  | '\'' :: rest =>
    let name := rest.takeWhile (· != '\'')
    match rest.drop name.length with
    | _ :: rest => if name.isEmpty then none else some (name, rest)
    | [] => none
  | cs =>
    let name := cs.takeWhile fun c => !(c == '=' || c == '#' || isBlank c)
    if name.isEmpty then none else some (name, cs.drop name.length)

/-- the text up to the first quote that no backslash escapes, and what follows; a backslash escapes any character -/
def untilQuote (quote : Char) : List Char → Option (List Char × List Char)
  | [] => none
  | '\\' :: c :: rest => (untilQuote quote rest).map fun (text, rest) => ('\\' :: c :: text, rest)
  | c :: rest =>
    if c = quote then some ([], rest) else (untilQuote quote rest).map fun (text, rest) => (c :: text, rest)

/-- the character that a backslash makes of the next one, in double quotes or in single ones -/
def escape? (double : Bool) (c : Char) : Option Char :=
  if c = '\\' || c = '\'' then some c
  else if !double then none
  else
    match c with
    | '"' => some '"'
    | 'a' => some '\x07'
    | 'b' => some '\x08'
    | 'f' => some '\x0c'
    | 'n' => some '\n'
    | 'r' => some '\r'
    | 't' => some '\t'
    | 'v' => some '\x0b'
    | _ => none

/-- the text with its escapes replaced -/
def unescape (double : Bool) : List Char → List Char
  | [] => []
  | '\\' :: c :: rest =>
    match escape? double c with
    | some d => d :: unescape double rest
    | none => '\\' :: unescape double (c :: rest)
  | c :: rest => c :: unescape double rest

/-- a value in quotes, from behind the first on -/
def quoted? (quote : Char) (cs : List Char) : Option (List Char × List Char) :=
  (untilQuote quote cs).map fun (text, rest) => (unescape (quote = '"') text, rest)

/-- the text up to a comment: a hash with a blank before it -/
def withoutComment : List Char → List Char
  | [] => []
  | c :: cs => if isBlank c && (cs.dropWhile isBlank).head? = some '#' then [] else c :: withoutComment cs

/-- a value without quotes is the rest of the line, without its comment and the blanks at its end -/
def plainValue (cs : List Char) : List Char :=
  ((withoutComment (cs.takeWhile (· != '\n'))).reverse.dropWhile isBlank).reverse

/-- a value, from behind its equals sign on; a hash with a blank before it begins a comment, also where the value is
empty -/
def value? (cs : List Char) : Option (List Char × List Char) :=
  let start := skipBlanks cs
  match start with
  | '\'' :: rest => quoted? '\'' rest
  | '"' :: rest => quoted? '"' rest
  | '#' :: _ => some (if start.length < cs.length then [] else plainValue start, start.dropWhile (· != '\n'))
  | _ => some (plainValue start, start.dropWhile (· != '\n'))

/-- a statement that ends with its line -/
def finish (s : Statement) (cs : List Char) : Statement × List Char :=
  match lineEnd? (skipComment cs) with
  | some rest => (s, rest)
  | none => (.flawed, afterLine (skipComment cs))

/-- the statement at the head, after blanks and empty lines, and what follows -/
def statement (cs : List Char) : Statement × List Char :=
  let start := cs.dropWhile isBlank
  match start, skipExport start with
  | [], _ => (.blank, [])
  | _, '#' :: rest => finish .blank ('#' :: rest)
  | _, cs =>
    match name? cs with
    | none => (.flawed, afterLine cs)
    | some (name, rest) =>
      match skipBlanks rest with
      | '=' :: rest =>
        match value? rest with
        | none => (.flawed, afterLine rest)
        | some (value, rest) => finish (.variable name (some value)) rest
      | rest => finish (.variable name none) rest

/-- what a file says: its variables in order, and the lines in which statements begin that are none -/
structure Contents where
  bindings : List (List Char × Option (List Char))
  flaws : List Nat
deriving DecidableEq, Repr

/-- the statements from a line on -/
def parseFrom : Nat → Nat → List Char → Contents
  | 0, _, _ => ⟨[], []⟩
  | fuel + 1, line, cs =>
    if cs.isEmpty then ⟨[], []⟩
    else
      let (s, rest) := statement cs
      let after := parseFrom fuel (line + (cs.take (cs.length - rest.length)).count '\n') rest
      match s with
      | .blank => after
      | .variable name value => { after with bindings := (name, value) :: after.bindings }
      | .flawed => { after with flaws := line :: after.flaws }

/-- the text without the mark of byte order that may stand at its beginning -/
def withoutMark : List Char → List Char
  | '\uFEFF' :: cs => cs
  | cs => cs

def parse (cs : List Char) : Contents := parseFrom (cs.length + 1) 1 (withoutMark cs)

/-! ## References -/

/-- a reference, from behind its opening brace on: the name, the text to take if there is no such variable, and what
follows -/
def reference? (cs : List Char) : Option (List Char × List Char × List Char) :=
  let name := cs.takeWhile fun c => !(c == '\x7d' || c == ':')
  match cs.drop name.length with
  | '\x7d' :: rest => some (name, [], rest)
  | ':' :: '-' :: rest =>
    let fallback := rest.takeWhile (· != '\x7d')
    match rest.drop fallback.length with
    | _ :: rest => some (name, fallback, rest)
    | [] => none
  | _ => none

/-- the text with its references replaced; `get?` finds a variable -/
def expandFrom (get? : List Char → Option (List Char)) : Nat → List Char → List Char
  | 0, cs => cs
  | _ + 1, [] => []
  | fuel + 1, c :: cs =>
    match c, cs with
    | '$', '\x7b' :: rest =>
      match reference? rest with
      | some (name, fallback, rest) => (get? name).getD fallback ++ expandFrom get? fuel rest
      | none => c :: expandFrom get? fuel cs
    | _, _ => c :: expandFrom get? fuel cs

def expand (get? : List Char → Option (List Char)) (cs : List Char) : List Char := expandFrom get? cs.length cs

/-- the names that a text refers to -/
def references : Nat → List Char → List (List Char)
  | 0, _ => []
  | _ + 1, [] => []
  | fuel + 1, c :: cs =>
    match c, cs with
    | '$', '\x7b' :: rest =>
      match reference? rest with
      | some (name, _, rest) => name :: references fuel rest
      | none => references fuel cs
    | _, _ => references fuel cs

/-- variables with their values; one without a value has none -/
abbrev Resolved := List (List Char × Option (List Char))

/-- a variable set; a new one comes last -/
def put (name : List Char) (value : Option (List Char)) : Resolved → Resolved
  | [] => [(name, value)]
  | x :: xs => if x.1 = name then (name, value) :: xs else x :: put name value xs

/-- a variable of the environment, or else one of the file; one without a value reads as empty -/
def find? (env : Environment) (done : Resolved) (name : List Char) : Option (List Char) :=
  match env.get? (String.ofList name) with
  | some v => some v.toList
  | none => (done.lookup name).map fun v => v.getD []

/-- the variables with references replaced, one after another: a variable sees those before it -/
def resolve (env : Environment) (bindings : List (List Char × Option (List Char))) : Resolved :=
  bindings.foldl (fun done (name, value) => put name (value.map (expand (find? env done))) done) []

/-- all names that a file sets or refers to -/
def Contents.names (c : Contents) : List (List Char) :=
  c.bindings.flatMap fun (name, value) => name :: (value.elim [] fun v => references v.length v)

end EnvFile

/-- why a variable cannot be set -/
inductive VariableError where
  | nulByte
  | badName
deriving DecidableEq, Repr

def VariableError.message : VariableError → String
  | .nulByte => "embedded null byte"
  | .badName => "illegal environment variable name"

namespace Environment

/-- the environment with a variable added -/
def add (env : Environment) (name value : List Char) : Except VariableError Environment :=
  if '\x00' ∈ name || '\x00' ∈ value then .error .nulByte
  else if '=' ∈ name then .error .badName
  else .ok (env ++ [(String.ofList name, String.ofList value)])

/-- the environment with the variables added that it lacks -/
def addMissing (env : Environment) : EnvFile.Resolved → Except VariableError Environment
  | [] => .ok env
  | (name, value) :: rest =>
    match value with
    | none => env.addMissing rest
    | some v =>
      if (env.get? (String.ofList name)).isSome then env.addMissing rest
      else do
        let env ← env.add name v
        env.addMissing rest

/-- the environment with what a file says; a variable that is set already keeps its value -/
def extend (env : Environment) (c : EnvFile.Contents) : Except VariableError Environment :=
  env.addMissing (EnvFile.resolve env c.bindings)

end Environment

end Brainfuck
