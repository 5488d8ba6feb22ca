/-
The value of a text under a tag: a truth value, a number, bytes, a day or a moment, or the text itself.
-/
import Brainfuck.Value
import Brainfuck.Yaml.Binary
import Brainfuck.Yaml.Number
import Brainfuck.Yaml.Resolution

namespace Brainfuck.Yaml

/-- the truth value of a word in any letter case -/
def boolOf (t : Text) : Except Error Value :=
  match t.lower.toString with
  | "yes" | "true" | "on" => .ok (.bool true)
  | "no" | "false" | "off" => .ok (.bool false)
  | _ => .error (.notBoolean t.lower)

def timestampOf (t : Text) : Except Error Value :=
  match Timestamp.read? (Plain.line t.toChars) with
  | none => .error .notMoment
  | some s => s.value.map fun
    | .inl d => .date d
    | .inr m => .moment m

/-- bytes that are spelled in ASCII -/
def bytesOf (t : Text) : Except Error Value :=
  if t.toChars.all (·.toNat < 128) then
    match Binary.decode t.toChars with
    | some bs => .ok (.bytes bs)
    | none => .error .malformed
  else .error .malformed

/-- the value of a text under a tag -/
def scalarValue (tag : Tag) (t : Text) : Except Error Value :=
  match tag with
  | .null => .ok .null
  | .bool => boolOf t
  | .int => .int <$> Number.int t
  | .float => .float <$> Number.float t
  | .binary => bytesOf t
  | .timestamp => timestampOf t
  | .str => .ok (.text t)
  | .omap | .pairs | .set | .seq | .map | .merge | .value | .other => .error .malformed

end Brainfuck.Yaml
