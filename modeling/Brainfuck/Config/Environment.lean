/-
Configuration from environment variables.

Eight options have a variable. One that is unset or empty leaves its option alone; the others are read in a fixed order
and laid over a base, and the first that cannot be read is reported with its name.
-/
import Brainfuck.Config.Draft
import Brainfuck.Decimal.Numeral

namespace Brainfuck

/-- the variables of an environment -/
abbrev Environment := List (String × String)

def Environment.get? (env : Environment) (name : String) : Option String := List.lookup name env

/-- the variables that are looked at -/
inductive Variable where
  | tapeLength
  | allowGrowth
  | wrappingCells
  | stepLimit
  | eofPolicy
  | startOffset
  | flushOutput
  | eofValue
deriving DecidableEq, Repr

/-- what is wrong with a variable -/
inductive VariableFault where
  | number (e : NumeralError)
  | boolean (raw : String)
  | policy (e : ConfigError)

/-- why an environment gives no configuration -/
inductive EnvironmentError where
  | badVariable (v : Variable) (fault : VariableFault)
  | config (e : ConfigError)

namespace Variable

def all : List Variable :=
  [tapeLength, allowGrowth, wrappingCells, stepLimit, eofPolicy, startOffset, flushOutput, eofValue]

def name : Variable → String
  | tapeLength => "BF_TAPE_LENGTH"
  | allowGrowth => "BF_ALLOW_GROWTH"
  | wrappingCells => "BF_WRAPPING_CELLS"
  | stepLimit => "BF_STEP_LIMIT"
  | eofPolicy => "BF_EOF_POLICY"
  | startOffset => "BF_START_OFFSET"
  | flushOutput => "BF_FLUSH_OUTPUT"
  | eofValue => "BF_EOF_VALUE"

/-- the option that a variable sets -/
def setting : Variable → Setting
  | tapeLength => .tapeLength
  | allowGrowth => .allowGrowth
  | wrappingCells => .wrappingCells
  | stepLimit => .maxSteps
  | eofPolicy => .eofPolicy
  | startOffset => .startOffset
  | flushOutput => .flushOutput
  | eofValue => .eofValue

/-- the truth value that a word stands for, in any letter case and with blanks around it -/
def readBool (raw : String) : Except VariableFault Bool :=
  let word := String.ofList (lowerAscii (strip raw.toList))
  if ["1", "true", "yes", "on"].contains word then .ok true
  else if ["0", "false", "no", "off"].contains word then .ok false
  else .error (.boolean raw)

/-- the value of the option that a text spells -/
def read (v : Variable) (raw : String) : Except VariableFault Value :=
  match v with
  | tapeLength | stepLimit | startOffset | eofValue =>
    match Numeral.read raw.toList with
    | .ok n => .ok (.int n)
    | .error e => .error (.number e)
  | allowGrowth | wrappingCells | flushOutput => (readBool raw).map .bool
  | eofPolicy =>
    match EofPolicy.read (.ofString raw) with
    | .ok p => .ok (.ofString p.name)
    | .error e => .error (.policy e)

/-- the text of a variable that is set and not empty -/
def raw? (v : Variable) (env : Environment) : Option String := (env.get? v.name).filter (· ≠ "")

end Variable

def VariableFault.message : VariableFault → String
  | .number e => e.message
  | .boolean raw => s!"Expected a boolean, got '{raw}'"
  | .policy e => e.message

def EnvironmentError.message : EnvironmentError → String
  | .badVariable v fault => s!"Invalid value for {v.name}: {fault.message}"
  | .config e => e.message

namespace Environment

/-- the options that variables set -/
def changesOf (env : Environment) : List Variable → Except EnvironmentError (List (Setting × Value))
  | [] => .ok []
  | v :: rest =>
    match v.raw? env with
    | none => changesOf env rest
    | some raw =>
      match v.read raw with
      | .error fault => .error (.badVariable v fault)
      | .ok value => (changesOf env rest).map ((v.setting, value) :: ·)

/-- the options that the environment sets -/
def changes (env : Environment) : Except EnvironmentError (List (Setting × Value)) := env.changesOf Variable.all

/-- the environment over a base -/
def config (env : Environment) (base : Config) : Except EnvironmentError Config := do
  let changes ← env.changes
  match base.replace changes with
  | .ok c => .ok c
  | .error e => .error (.config e)

end Environment

end Brainfuck
