/-
Configuration files.

A file whose name ends in `.yml` or `.yaml` is read as YAML and any other as JSON, in UTF-8 and with universal line
ends. It holds a mapping of options, or nothing; a mapping under the key `interpreter` takes the place of the whole.
The options are laid over a base.
-/
import Brainfuck.Config.Overlay
import Brainfuck.FileTree
import Brainfuck.Json.Reader
import Brainfuck.Yaml.Reader

namespace Brainfuck

/-- why a file gives no configuration -/
inductive FileError where
  | path (e : PathError)
  | encoding (e : Utf8.Malformed)
  | json (file : Text) (e : Json.Error)
  | yaml (file : Text) (e : Yaml.Error)
  | notMapping (file : Text)
  | config (e : ConfigError)

namespace FileError

def invalid (file : Text) (message : String) : String := s!"Config file {file.printed} is not valid: {message}"

def message : FileError → String
  | .path e => e.message
  | .encoding e => e.message
  | .json file (.flawed f p) => invalid file (Json.Error.flawed f p).message
  | .json _ e => e.message
  | .yaml file e => if e.isMalformed then invalid file e.message else e.message
  | .notMapping file => s!"Config file {file.printed} must contain a mapping"
  | .config e => e.message

end FileError

namespace Config

/-- a name with one of the endings of YAML files -/
def isYaml (path : Text) : Bool := [".yml", ".yaml"].any fun ending => (Text.ofString ending).isSuffixOf path

/-- what a file holds, as far as it matters for options -/
structure FileContent where
  whole : Value
  /-- the value under the key under which options may stand -/
  nested : Option Value

/-- the key under which options may stand -/
def nestedKey : Value := .ofString "interpreter"

/-- what a file spells; a JSON document may be nested so deep -/
def parseFile (nesting : Nat) (path : Text) (bytes : List UInt8) : Except FileError FileContent :=
  if isYaml path then
    match Yaml.read bytes with
    | .error (.encoding e) => .error (.encoding e)
    | .error e => .error (.yaml path e)
    | .ok tree => .ok ⟨tree.whole, tree.under? nestedKey⟩
  else
    match Utf8.decode bytes with
    | .error e => .error (.encoding e)
    | .ok cs =>
      match Json.parse (universalLines cs) nesting with
      | .error e => .error (.json path e)
      | .ok (.mapping entries) => .ok ⟨.mapping entries, Value.find? nestedKey entries⟩
      | .ok v => .ok ⟨v, none⟩

/-- the options in a file -/
def optionsOf (path : Text) (c : FileContent) : Except FileError Value :=
  match c.whole, c.nested with
  | .null, _ => .ok (.mapping [])
  | .mapping entries, none => .ok (.mapping entries)
  | .mapping _, some v => .ok (if v.isTruthy then v else .mapping [])
  | _, _ => .error (.notMapping path)

/-- the options of a file over those of a configuration -/
def load (files : FileTree) (path : Text) (base : Config) : Except FileError Config := do
  let bytes ← (files.read path).mapError .path
  let options ← optionsOf path (← parseFile files.nesting path bytes)
  (base.overlayValue options).mapError .config

end Config

end Brainfuck
