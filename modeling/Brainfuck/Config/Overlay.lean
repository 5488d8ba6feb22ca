/-
Laying a mapping over a configuration.

The keys must all name options. Those that do not are reported together and in order, before anything is said about the
values. What is no mapping is taken for the collection of its elements, as far as it has any.
-/
import Brainfuck.Config.Draft

namespace Brainfuck.Config

/-- the option that a key names -/
def settingOfKey? : Value → Option Setting
  | .text t => Setting.ofText? t
  | _ => none

/-- each value once, in the order in which they come first -/
def distinct (keys : List Value) : List Value :=
  keys.foldl (fun seen k => if seen.any (·.sameKey k) then seen else seen ++ [k]) []

/-- the keys that name no option are an error -/
def checkKeys (keys : List Value) : Except ConfigError Unit :=
  match (distinct keys).filter fun k => (settingOfKey? k).isNone with
  | [] => .ok ()
  | unknown =>
    match Value.sorted unknown with
    | .ok sorted => .error (.unknownOptions sorted)
    | .error e => .error (.unorderedOptions e)

/-- the options of a mapping over those of a configuration -/
def overlay (c : Config) (entries : List (Value × Value)) : Except ConfigError Config := do
  checkKeys (entries.map Prod.fst)
  c.replace (entries.filterMap fun e => (settingOfKey? e.1).map (·, e.2))

/-- an element that cannot be a key -/
def unhashable? : Value → Option String
  | .list _ => some "list"
  | .set _ => some "set"
  | .mapping _ => some "dict"
  | .recurrence isMapping => some (Value.recurrence isMapping).typeName
  | .pair k v => unhashable? k <|> unhashable? v
  | _ => none

/-- the elements of a value that is no mapping -/
def elementsOf : Value → Except ConfigError (List Value)
  | .text t => .ok (t.map fun p => .text [p])
  | .bytes bs => .ok (bs.map fun b => .int b.toNat)
  | .list items | .set items => .ok items
  | .pair k v => .ok [k, v]
  | v => .error (.notIterable v.typeName)

/-- the options of any value over those of a configuration -/
def overlayValue (c : Config) : Value → Except ConfigError Config
  | .mapping entries => c.overlay entries
  | v => do
    let elements ← elementsOf v
    if let some name := elements.findSome? unhashable? then throw (.unhashable name)
    checkKeys elements
    match elements with
    | [] => .ok c
    | .text t :: _ => throw (.notPair 0 t.length)
    | _ :: _ => throw (.notPair 0 0)

end Brainfuck.Config
