/-
The configuration that a command line asks for.

Three layers lie over the defaults: the environment, the configuration file, and the flags. Each is laid over the one
below it and must give a valid configuration there.
-/
import Brainfuck.CommandLine.Arguments
import Brainfuck.Config.Environment
import Brainfuck.Config.File

namespace Brainfuck.CommandLine

/-- why there is no configuration -/
inductive SettingsError where
  | environment (e : EnvironmentError)
  | file (e : FileError)
  | flags (e : ConfigError)

namespace SettingsError

def message : SettingsError → String
  | environment e => e.message
  | file e => e.message
  | flags e => e.message

/-- the error lies in a value that was given, or in a file that cannot be read -/
def isInvalidValue : SettingsError → Bool
  | environment (.config e) | flags e | file (.config e) => !e.isTypeError
  | file (.json _ (.tooDeep _)) => false
  | file (.yaml _ e) =>
    match e with
    | .malformed | .unclosed | .number _ | .notFloat _ | .calendar _ | .encoding _ => true
    | .codePoint n => n < Yaml.Error.numberLimit
    | .noDigit | .notBoolean _ | .notMoment | .mappingAsMoment | .endless => false
  | _ => true

end SettingsError

namespace Arguments

/-- the value of an integer operand; one that was lost is no integer -/
def intValue : Operand Int → Value
  | .given n => .int n
  | .lost => .list []

/-- the policy that the flags ask for: a fallback byte asks for its use -/
def policy (a : Arguments) : Option EofPolicy := a.eof.or (a.eofValue.map fun _ => .value)

/-- the options that the flags set -/
def changes (a : Arguments) : List (Setting × Value) :=
  ((a.tapeLength.map fun n => (Setting.tapeLength, intValue n)).toList) ++
    (if a.fixedTape then [(.allowGrowth, .bool false)] else []) ++
    (if a.noWrap then [(.wrappingCells, .bool false)] else []) ++
    ((a.maxSteps.map fun n => (Setting.maxSteps, intValue n)).toList) ++
    ((a.eofValue.map fun n => (Setting.eofValue, intValue n)).toList) ++
    ((a.policy.map fun p => (Setting.eofPolicy, Value.ofString p.name)).toList) ++
    (if a.noFlush then [(.flushOutput, .bool false)] else []) ++
    (if a.time then [(.benchExecution, .bool true)] else [])

/-- the configuration file, if one is named -/
def configFile (a : Arguments) : Option Text := a.config.filter (· ≠ [])

/-- the configuration of the file layer -/
def fileConfig (a : Arguments) (files : FileTree) (base : Config) : Except SettingsError Config :=
  match a.configFile with
  | none => .ok base
  | some path => (Config.load files path base).mapError .file

/-- the configuration of all layers -/
def resolve (a : Arguments) (env : Environment) (files : FileTree) : Except SettingsError Config := do
  let fromEnvironment ← (env.config default).mapError .environment
  let fromFile ← a.fileConfig files fromEnvironment
  (fromFile.replace a.changes).mapError .flags

end Arguments

end Brainfuck.CommandLine
