/-
Reading a JSON document into a `Value`.

The grammar is that of JSON with three more words, `NaN`, `Infinity` and `-Infinity`. Numbers without fraction and
exponent are integers of any size. An escape may spell a lone surrogate. The first flaw in reading order is reported,
with the place where the document stops making sense.

Every reader takes the rest of the document and returns what it leaves; a flaw carries the rest at which it was found.
The depth of recursion is bounded by a number; twice the length of the document is always enough, as a value and the
list or mapping around it that it begins take one character between them.

The stack bounds how deep lists and mappings may be nested. This is the `room` that a reader is given; how much there is
depends on the caller, so it is a parameter. Reading a document takes more of the stack than showing what was read
(`Value.quoted`), which is therefore never too deep.
-/
import Brainfuck.Json.Error
import Brainfuck.Value

namespace Brainfuck.Json

/-- a flaw, with the rest of the document where it stands -/
inductive Refusal where
  | flaw (f : Flaw) (rest : List Char)
  | longNumber (e : NumeralError)
  | tooDeep (isMapping : Bool)

/-- a reader's answer: a result and the rest of the document -/
abbrev Answer (α : Type) := Except Refusal (α × List Char)

def refuse {α : Type} (f : Flaw) (rest : List Char) : Answer α := .error (.flaw f rest)

def isSpace (c : Char) : Bool := c = ' ' || c = '\t' || c = '\n' || c = '\r'

def skipSpace (cs : List Char) : List Char := cs.dropWhile isSpace

/-- the value of a hexadecimal digit -/
def hexDigit? (c : Char) : Option Nat :=
  let n := c.toNat
  if 48 ≤ n && n ≤ 57 then some (n - 48)
  else if 97 ≤ n && n ≤ 102 then some (n - 87)
  else if 65 ≤ n && n ≤ 70 then some (n - 55)
  else none

/-- four hexadecimal digits, which may not end the document -/
def fourDigits? : List Char → Option (Nat × List Char)
  | a :: b :: c :: d :: e :: rest => do
    return ((((← hexDigit? a) * 16 + (← hexDigit? b)) * 16 + (← hexDigit? c)) * 16 + (← hexDigit? d), e :: rest)
  | _ => none

def isHighSurrogate (n : Nat) : Bool := 0xD800 ≤ n && n ≤ 0xDBFF

def isLowSurrogate (n : Nat) : Bool := 0xDC00 ≤ n && n ≤ 0xDFFF

/-- the character that two surrogates spell -/
def joinSurrogates (high low : Nat) : Nat := 0x10000 + (high - 0xD800) * 0x400 + (low - 0xDC00)

/-- a numbered escape after its `u`; a high surrogate takes a low one that follows it -/
def codePoint (afterBackslash digits : List Char) : Answer CodePoint :=
  match fourDigits? digits with
  | none => refuse .badCodePoint afterBackslash
  | some (n, rest) =>
    let alone := .ok (.ofNat n, rest)
    if isHighSurrogate n then
      match rest with
      | '\\' :: 'u' :: second =>
        if second.length < 5 then alone
        else
          match fourDigits? second with
          | none => refuse .badCodePoint ('u' :: second)
          | some (m, rest) => if isLowSurrogate m then .ok (.ofNat (joinSurrogates n m), rest) else alone
      | _ => alone
    else alone

/-- the character of a one-letter escape -/
def letterEscape? : Char → Option Char
  | '"' => some '"'
  | '\\' => some '\\'
  | '/' => some '/'
  | 'b' => some (Char.ofNat 8)
  | 'f' => some (Char.ofNat 12)
  | 'n' => some '\n'
  | 'r' => some '\r'
  | 't' => some '\t'
  | _ => none

/-- the rest of a string after its opening quote; `start` is the rest at that quote, and `done` is what is read,
reversed -/
def stringBody (start : List Char) : Nat → Text → List Char → Answer Text
  | 0, _, _ => refuse .unterminatedString start
  | fuel + 1, done, cs =>
    match cs with
    | [] => refuse .unterminatedString start
    | '"' :: rest => .ok (done.reverse, rest)
    | '\\' :: rest =>
      match rest with
      | [] => refuse .unterminatedString start
      | 'u' :: digits =>
        match codePoint rest digits with
        | .error e => .error e
        | .ok (p, rest) => stringBody start fuel (p :: done) rest
      | c :: rest' =>
        match letterEscape? c with
        | none => refuse .badEscape cs
        | some d => stringBody start fuel (.char d :: done) rest'
    | c :: rest =>
      if c.toNat < 32 then refuse .controlCharacter cs else stringBody start fuel (.char c :: done) rest

/-- the decimal digits at the front -/
def digitsOf (cs : List Char) : List Char × List Char := (cs.takeWhile Char.isDigit, cs.dropWhile Char.isDigit)

def numberOf (ds : List Char) : Nat := ds.foldl (fun n c => 10 * n + (c.toNat - 48)) 0

/-- a point and digits -/
def fraction (cs : List Char) : Option (List Char × List Char) :=
  match cs with
  | '.' :: rest =>
    match digitsOf rest with
    | ([], _) => none
    | (ds, rest) => some (ds, rest)
  | _ => none

/-- an exponent mark, a sign or none, and digits -/
def exponent (cs : List Char) : Option (Int × List Char) :=
  match cs with
  | c :: rest =>
    if c = 'e' || c = 'E' then
      let (negative, rest) := Numeral.sign rest
      match digitsOf rest with
      | ([], _) => none
      | (ds, rest) => some (if negative then -(numberOf ds : Int) else numberOf ds, rest)
    else none
  | [] => none

/-- a number after its minus sign -/
def number (negative : Bool) (start cs : List Char) : Answer Value :=
  let whole := match cs with
    | '0' :: rest => (['0'], rest)
    | cs => digitsOf cs
  match whole with
  | ([], _) => refuse .noValue start
  | (ds, rest) =>
    let fractional := fraction rest
    let (fs, rest) := fractional.getD ([], rest)
    let scientific := exponent rest
    let (e, rest) := scientific.getD (0, rest)
    if fractional.isSome || scientific.isSome then
      let x := Decimal.toFloat (numberOf (ds ++ fs)) (e - fs.length)
      .ok (.float (if negative then -x else x), rest)
    else if Numeral.digitLimit < ds.length then .error (.longNumber (.tooLong ds.length))
    else .ok (.int (if negative then -(numberOf ds : Int) else numberOf ds), rest)

/-- a value that is no container: a word or a number -/
def scalar (cs : List Char) : Answer Value :=
  match cs with
  | 'n' :: 'u' :: 'l' :: 'l' :: rest => .ok (.null, rest)
  | 't' :: 'r' :: 'u' :: 'e' :: rest => .ok (.bool true, rest)
  | 'f' :: 'a' :: 'l' :: 's' :: 'e' :: rest => .ok (.bool false, rest)
  | 'N' :: 'a' :: 'N' :: rest => .ok (.float (0.0 / 0.0), rest)
  | 'I' :: 'n' :: 'f' :: 'i' :: 'n' :: 'i' :: 't' :: 'y' :: rest => .ok (.float (1.0 / 0.0), rest)
  | '-' :: 'I' :: 'n' :: 'f' :: 'i' :: 'n' :: 'i' :: 't' :: 'y' :: rest => .ok (.float (-1.0 / 0.0), rest)
  | '-' :: rest => number true cs rest
  | _ => number false cs cs

mutual

/-- any value -/
def value : Nat → Nat → List Char → Answer Value
  | 0, _, cs => refuse .noValue cs
  | fuel + 1, room, cs =>
    match cs with
    | '"' :: rest => (stringBody cs cs.length [] rest).map fun (t, rest) => (.text t, rest)
    | '[' :: rest =>
      match room with
      | 0 => .error (.tooDeep false)
      | room + 1 =>
        match skipSpace rest with
        | ']' :: rest => .ok (.list [], rest)
        | rest => elements fuel room [] rest
    | '\x7b' :: rest =>
      match room with
      | 0 => .error (.tooDeep true)
      | room + 1 =>
        match skipSpace rest with
        | '\x7d' :: rest => .ok (.mapping [], rest)
        | rest => members fuel room [] rest
    | cs => scalar cs

/-- the elements of a list up to its end; those read are kept reversed -/
def elements : Nat → Nat → List Value → List Char → Answer Value
  | 0, _, _, cs => refuse .noValue cs
  | fuel + 1, room, done, cs =>
    match value fuel room cs with
    | .error e => .error e
    | .ok (v, rest) =>
      match skipSpace rest with
      | ']' :: rest => .ok (.list (v :: done).reverse, rest)
      | ',' :: rest => elements fuel room (v :: done) (skipSpace rest)
      | rest => refuse .noComma rest

/-- the entries of a mapping up to its end -/
def members : Nat → Nat → List (Value × Value) → List Char → Answer Value
  | 0, _, _, cs => refuse .noValue cs
  | fuel + 1, room, done, cs =>
    match cs with
    | '"' :: rest =>
      match stringBody cs cs.length [] rest with
      | .error e => .error e
      | .ok (key, rest) =>
        match skipSpace rest with
        | ':' :: rest =>
          match value fuel room (skipSpace rest) with
          | .error e => .error e
          | .ok (v, rest) =>
            let done := (.text key, v) :: done
            match skipSpace rest with
            | '\x7d' :: rest => .ok (.ofEntries done.reverse, rest)
            | ',' :: rest => members fuel room done (skipSpace rest)
            | rest => refuse .noComma rest
        | rest => refuse .noColon rest
    | cs => refuse .noKey cs

end

/-- the value of a whole document -/
def document (room : Nat) (cs : List Char) : Answer Value :=
  match cs with
  | '\uFEFF' :: _ => refuse .byteOrderMark cs
  | _ =>
    match value (2 * cs.length + 2) room (skipSpace cs) with
    | .error e => .error e
    | .ok (v, rest) =>
      match skipSpace rest with
      | [] => .ok (v, [])
      | rest => refuse .extraData rest

/-- the value that a document spells; room for as many lists and mappings as there are characters is always enough -/
def parse (cs : List Char) (room : Nat := cs.length) : Except Error Value :=
  match document room cs with
  | .ok (v, _) => .ok v
  | .error (.longNumber e) => .error (.longNumber e)
  | .error (.tooDeep isMapping) => .error (.tooDeep isMapping)
  | .error (.flaw f rest) => .error (.flawed f (.of cs (cs.length - rest.length)))

end Brainfuck.Json
