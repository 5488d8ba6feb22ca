/-
Errors as data: a kind, a message, and named attributes.

`ErrorKind.report` makes an error of any kind from positional arguments of any type, as long as there are neither too
few nor too many. `ParseError.report` and `ExecutionError.report` give the same form of the typed errors.
-/
import Brainfuck.Error
import Brainfuck.Value

namespace Brainfuck

/-- an error with its message and attributes -/
structure ErrorReport where
  kind : ErrorKind
  message : String
  attributes : List (String × Value)

/-- a wrong number of arguments; `kind` is the kind whose arguments they are -/
inductive ArityError where
  | missing (kind : ErrorKind) (parameter : String)
  | tooMany (kind : ErrorKind) (least most given : Nat)

def ArityError.message : ArityError → String
  | .missing k p => s!"{k.name}.__init__() missing 1 required positional argument: '{p}'"
  | .tooMany k least most given =>
    s!"{k.name}.__init__() takes from {least} to {most} positional arguments but {given} were given"

namespace ErrorKind

/-- the parameters of a kind in order, with their defaults; the root takes anything -/
def parameters : ErrorKind → List (String × Option Value)
  | brainfuckError => []
  | parseError | unmatchedOpenBracket | unmatchedCloseBracket =>
    [("position", none), ("line", some (.int 1)), ("column", some (.int 1))]
  | executionError => ("message", none) :: place
  | tapeUnderflow | inputExhausted => place
  | tapeOverflow => place ++ [("tape_length", some (.int 0))]
  | cellOverflow => ("value", none) :: place
  | ioFailure => ("detail", none) :: place
  | stepLimitExceeded => ("limit", none) :: place
where
  /-- where in a run the error stands -/
  place : List (String × Option Value) := [("ip", some (.int 0)), ("pointer", some (.int 0))]

/-- the kind whose parameters these are -/
def declaring : ErrorKind → ErrorKind
  | unmatchedOpenBracket | unmatchedCloseBracket => parseError
  | k => k

/-- give each parameter its argument or its default -/
def bind (kind : ErrorKind) : List (String × Option Value) → List Value → Except ArityError (List (String × Value))
  | [], _ => .ok []
  | (name, default?) :: ps, args =>
    match args.head?.or default? with
    | none => .error (.missing kind name)
    | some v => (bind kind ps args.tail).map ((name, v) :: ·)

/-- the message for attributes of a kind -/
def message (k : ErrorKind) (attributes : List (String × Value)) : String :=
  let shown name := ((attributes.lookup name).map Value.display).getD ""
  match k with
  | brainfuckError => ""
  | parseError | unmatchedOpenBracket | unmatchedCloseBracket =>
    inText (k.description "") (shown "position") (shown "line") (shown "column")
  | _ =>
    let detail := ["message", "value", "detail", "limit", "tape_length"].map shown
    inRun (k.description (String.join detail)) (shown "ip") (shown "pointer")

/-- an error of a kind, from arguments -/
def report (k : ErrorKind) (args : List Value) : Except ArityError ErrorReport :=
  match k with
  | brainfuckError =>
    let message := match args with
      | [] => ""
      | [v] => v.display
      | vs => "(" ++ ", ".intercalate (vs.map Value.quoted) ++ ")"
    .ok ⟨k, message, []⟩
  | k => do
    let ps := k.parameters
    if ps.length < args.length then
      throw (.tooMany k.declaring ((ps.filter fun p => p.2.isNone).length + 1) (ps.length + 1) (args.length + 1))
    let attributes ← bind k.declaring ps args
    return ⟨k, k.message attributes, attributes.filter fun a => a.1 ≠ "message"⟩

end ErrorKind

def ParseError.report (e : ParseError) : ErrorReport :=
  ⟨e.kind, e.message,
    [("position", .int e.place.position), ("line", .int e.place.line), ("column", .int e.place.column)]⟩

/-- the attribute that only some causes have -/
def Cause.attribute : Cause → List (String × Value)
  | .tapeOverflow n => [("tape_length", .int n)]
  | .cellOverflow v => [("value", .int v)]
  | .ioFailure d => [("detail", .ofString d)]
  | .stepLimitExceeded l => [("limit", .int l)]
  | .tapeUnderflow | .inputExhausted => []

def ExecutionError.report (e : ExecutionError) : ErrorReport :=
  ⟨e.kind, e.message, e.cause.attribute ++ [("ip", .int e.ip), ("pointer", .int e.pointer)]⟩

end Brainfuck
