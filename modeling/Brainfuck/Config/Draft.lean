/-
From option values to a configuration.

A draft gives each of the eleven options a value of any type. `Draft.build` accepts it if the integers are integers,
the truth values are truth values, the end-of-input policy is named, and all ranges hold; it reports the first of these
that fails, in a fixed order. Every way to make a configuration ends here: options are laid over the draft of a base,
and the whole is built anew.
-/
import Brainfuck.Config
import Brainfuck.Text.Blank
import Brainfuck.Value.Sorted

namespace Brainfuck

/-- the options of a configuration -/
inductive Setting where
  | tapeLength
  | allowGrowth
  | wrappingCells
  | maxSteps
  | eofPolicy
  | startOffset
  | precomputeJumps
  | flushOutput
  | growthChunk
  | benchExecution
  | eofValue
deriving DecidableEq, Repr

namespace Setting

def all : List Setting :=
  [tapeLength, allowGrowth, wrappingCells, maxSteps, eofPolicy, startOffset, precomputeJumps, flushOutput, growthChunk,
    benchExecution, eofValue]

def name : Setting → String
  | tapeLength => "tape_length"
  | allowGrowth => "allow_growth"
  | wrappingCells => "wrapping_cells"
  | maxSteps => "max_steps"
  | eofPolicy => "eof_policy"
  | startOffset => "start_offset"
  | precomputeJumps => "precompute_jumps"
  | flushOutput => "flush_output"
  | growthChunk => "growth_chunk"
  | benchExecution => "bench_execution"
  | eofValue => "eof_value"

def ofText? (t : Text) : Option Setting := all.find? fun s => Text.ofString s.name = t

end Setting

/-- why options make no configuration, or not one for what is asked of it -/
inductive ConfigError where
  | notInteger (s : Setting) (v : Value)
  | notBoolean (s : Setting) (v : Value)
  | unknownPolicy (raw : Text)
  | notPolicy (v : Value)
  | tapeTooShort
  | chunkTooSmall
  | negativeLimit
  | startOutside (tapeLength : Int)
  | notByte
  /-- an option that does not exist -/
  | unexpectedOption (name : Text)
  /-- an option under the name of the configuration itself, when one is made or when one is changed -/
  | ownName (changing : Bool)
  /-- keys of a mapping that name no option, in ascending order -/
  | unknownOptions (keys : List Value)
  /-- keys that name no option and have no order -/
  | unorderedOptions (e : OrderFlaw)
  /-- options given as something that has no elements -/
  | notIterable (typeName : String)
  /-- options given as something whose element cannot be a key -/
  | unhashable (typeName : String)
  /-- options given as a list whose element is no pair of name and value -/
  | notPair (index length : Nat)
  /-- the time of a run is to be shown, and the configuration does not take it -/
  | untimed

namespace ConfigError

/-- the error lies in the type of what was given, and not in its value -/
def isTypeError : ConfigError → Bool
  | unexpectedOption _ | ownName _ | unorderedOptions _ | notIterable _ | unhashable _ | untimed => true
  | _ => false

/-- the values that the message shows -/
def shown : ConfigError → List Value
  | notInteger _ v | notBoolean _ v | notPolicy v => [v]
  | startOutside n => [.int (n - 1)]
  | unknownOptions keys => keys
  | _ => []

/-- the message, if what it shows can be shown -/
def wording : ConfigError → String
  | notInteger s v => s!"{s.name} must be an integer, got {v.quoted}"
  | notBoolean s v => s!"{s.name} must be true or false, got {v.quoted}"
  | unknownPolicy raw =>
    s!"Unknown eof policy: '{raw.toString}'. Available policies: " ++
      Quoted.list (EofPolicy.all.map fun p => Quoted.string p.name)
  | notPolicy v => s!"eof_policy must be an EofPolicy, got {v.quoted}"
  | tapeTooShort => "tape_length must be at least 1"
  | chunkTooSmall => "growth_chunk must be at least 1"
  | negativeLimit => "max_steps must be non-negative"
  | startOutside n => s!"start_offset must be within the tape (0..{n - 1})"
  | notByte => "eof_value must be a byte (0..255)"
  | unexpectedOption name => s!"InterpreterConfig.__init__() got an unexpected keyword argument '{name.toString}'"
  | ownName changing =>
    let operation := if changing then "replace" else "__init__"
    s!"InterpreterConfig.{operation}() got multiple values for argument 'self'"
  | unknownOptions keys => s!"Unknown interpreter options: {Quoted.list (keys.map Value.quoted)}"
  | unorderedOptions e => e.message
  | notIterable t => s!"'{t}' object is not iterable"
  | unhashable t => s!"unhashable type: '{t}'"
  | notPair i n => s!"dictionary update sequence element #{i} has length {n}; 2 is required"
  | untimed => "unsupported format string passed to NoneType.__format__"

/-- the words about an integer that has too many digits to be shown -/
def tooLong : String :=
  s!"Exceeds the limit ({Numeral.digitLimit} digits) for integer string conversion; " ++
    "use sys.set_int_max_str_digits() to increase the limit"

def message (e : ConfigError) : String := if e.shown.all Value.isShowable then e.wording else tooLong

end ConfigError

/-- the policy that a text names, in any letter case and with blanks around it -/
def EofPolicy.read (raw : Text) : Except ConfigError EofPolicy :=
  match EofPolicy.ofName? (String.ofList (lowerAscii (strip raw.toChars))) with
  | some p => .ok p
  | none => .error (.unknownPolicy raw)

/-- a value for each option -/
structure Draft where
  value : Setting → Value

namespace Draft

/-- the draft with one option changed -/
def set (d : Draft) (s : Setting) (v : Value) : Draft := ⟨fun t => if t = s then v else d.value t⟩

/-- the draft with options changed one after another -/
def setAll (d : Draft) (changes : List (Setting × Value)) : Draft :=
  changes.foldl (fun d change => d.set change.1 change.2) d

def int (d : Draft) (s : Setting) : Except ConfigError Int :=
  match d.value s with
  | .int n => .ok n
  | v => .error (.notInteger s v)

/-- an integer, or null for none -/
def int? (d : Draft) (s : Setting) : Except ConfigError (Option Int) :=
  match d.value s with
  | .null => .ok none
  | _ => (d.int s).map some

def bool (d : Draft) (s : Setting) : Except ConfigError Bool :=
  match d.value s with
  | .bool b => .ok b
  | v => .error (.notBoolean s v)

def policy (d : Draft) : Except ConfigError EofPolicy :=
  match d.value .eofPolicy with
  | .text t => EofPolicy.read t
  | v => .error (.notPolicy v)

/-- the options of a draft with the types that they must have -/
structure Typed where
  tapeLength : Int
  maxSteps : Option Int
  startOffset : Int
  growthChunk : Int
  eofValue : Int
  allowGrowth : Bool
  wrappingCells : Bool
  precomputeJumps : Bool
  flushOutput : Bool
  benchExecution : Bool
  eofPolicy : EofPolicy

/-- the integers are looked at first, then the truth values, then the policy -/
def typed (d : Draft) : Except ConfigError Typed := do
  let tapeLength ← d.int .tapeLength
  let maxSteps ← d.int? .maxSteps
  let startOffset ← d.int .startOffset
  let growthChunk ← d.int .growthChunk
  let eofValue ← d.int .eofValue
  let allowGrowth ← d.bool .allowGrowth
  let wrappingCells ← d.bool .wrappingCells
  let precomputeJumps ← d.bool .precomputeJumps
  let flushOutput ← d.bool .flushOutput
  let benchExecution ← d.bool .benchExecution
  let eofPolicy ← d.policy
  return { tapeLength, maxSteps, startOffset, growthChunk, eofValue, allowGrowth, wrappingCells, precomputeJumps,
           flushOutput, benchExecution, eofPolicy }

/-- the configuration with these numbers, if all of them are in range -/
def Typed.build (t : Typed) : Except ConfigError Config :=
  if ht : t.tapeLength < 1 then .error .tapeTooShort
  else if hg : t.growthChunk < 1 then .error .chunkTooSmall
  else if t.maxSteps.any (· < 0) then .error .negativeLimit
  else if hs : ¬(0 ≤ t.startOffset ∧ t.startOffset < t.tapeLength) then .error (.startOutside t.tapeLength)
  else if ¬(0 ≤ t.eofValue ∧ t.eofValue ≤ 255) then .error .notByte
  else
    .ok {
      tapeLength := t.tapeLength.toNat
      allowGrowth := t.allowGrowth
      wrappingCells := t.wrappingCells
      maxSteps := t.maxSteps.map Int.toNat
      eofPolicy := t.eofPolicy
      startOffset := t.startOffset.toNat
      precomputeJumps := t.precomputeJumps
      flushOutput := t.flushOutput
      growthChunk := t.growthChunk.toNat
      benchExecution := t.benchExecution
      eofValue := UInt8.ofNat t.eofValue.toNat
      tapeLength_pos := by omega
      growthChunk_pos := by omega
      startOffset_lt := by omega }

/-- the configuration that a draft describes -/
def build (d : Draft) : Except ConfigError Config := d.typed >>= Typed.build

end Draft

namespace Config

/-- the options of a configuration as values -/
def draft (c : Config) : Draft where
  value
    | .tapeLength => .int c.tapeLength
    | .allowGrowth => .bool c.allowGrowth
    | .wrappingCells => .bool c.wrappingCells
    | .maxSteps => match c.maxSteps with
      | none => .null
      | some n => .int n
    | .eofPolicy => .ofString c.eofPolicy.name
    | .startOffset => .int c.startOffset
    | .precomputeJumps => .bool c.precomputeJumps
    | .flushOutput => .bool c.flushOutput
    | .growthChunk => .int c.growthChunk
    | .benchExecution => .bool c.benchExecution
    | .eofValue => .int c.eofValue.toNat

/-- the options as a mapping -/
def toMapping (c : Config) : List (Value × Value) :=
  Setting.all.map fun s => (.ofString s.name, c.draft.value s)

/-- the configuration with some options changed -/
def replace (c : Config) (changes : List (Setting × Value)) : Except ConfigError Config :=
  (c.draft.setAll changes).build

/-- the name under which a configuration itself is known where options are given by name -/
def isOwnName (name : Text) : Bool := name == Text.ofString "self"

/-- the options that names stand for, up to the first name that stands for none -/
def settingsOf : List (Text × Value) → Except ConfigError (List (Setting × Value))
  | [] => .ok []
  | (name, v) :: rest =>
    match Setting.ofText? name with
    | none => .error (if isOwnName name then .ownName false else .unexpectedOption name)
    | some s => (settingsOf rest).map ((s, v) :: ·)

/-- the configuration with named options changed -/
def replaceNamed (c : Config) (changes : List (Text × Value)) : Except ConfigError Config :=
  if changes.any (isOwnName ·.1) then .error (.ownName true) else settingsOf changes >>= c.replace

/-- a configuration from named options; the others have their defaults -/
def ofNamed (options : List (Text × Value)) : Except ConfigError Config :=
  settingsOf options >>= Config.replace default

end Config

end Brainfuck
