/-
UTF-8: bytes to characters and back.

`Utf8.decode` reads well-formed sequences only: no overlong form, no surrogate, nothing past `U+10FFFF`. A refusal
says where the bad bytes stand and in which of three ways they are bad.
-/

namespace Brainfuck.Utf8

/-- in which way bytes are no UTF-8 -/
inductive Flaw where
  | invalidStart
  | invalidContinuation
  | truncated
deriving DecidableEq, Repr

/-- the bytes from `first` to `last` are not UTF-8; `byte` is the first of them -/
structure Malformed where
  first : Nat
  last : Nat
  byte : UInt8
  flaw : Flaw
deriving DecidableEq, Repr

/-- the number in lower-case hexadecimal digits, padded with zeros to a width -/
def hex (width n : Nat) : String :=
  let digits := Nat.toDigits 16 n
  String.ofList (List.replicate (width - digits.length) '0' ++ digits)

def Flaw.wording : Flaw → String
  | .invalidStart => "invalid start byte"
  | .invalidContinuation => "invalid continuation byte"
  | .truncated => "unexpected end of data"

def Malformed.message (e : Malformed) : String :=
  if e.first = e.last then
    s!"'utf-8' codec can't decode byte 0x{hex 2 e.byte.toNat} in position {e.first}: {e.flaw.wording}"
  else
    s!"'utf-8' codec can't decode bytes in position {e.first}-{e.last}: {e.flaw.wording}"

/-- a byte that continues a sequence -/
def isContinuation (b : UInt8) : Bool := 0x80 ≤ b && b ≤ 0xBF

/-- the six low bits of a continuation byte -/
def low (b : UInt8) : Nat := b.toNat % 64

/-- what the second byte may be after the first one of a longer sequence: no overlong form, no surrogate, no number
past the last code point -/
def secondAllowed (first second : UInt8) : Bool :=
  isContinuation second &&
    (if first == 0xE0 then 0xA0 ≤ second
     else if first == 0xED then second ≤ 0x9F
     else if first == 0xF0 then 0x90 ≤ second
     else if first == 0xF4 then second ≤ 0x8F
     else true)

/-- one character at the head: its bytes in number and itself, or the number of bad bytes and their flaw -/
def head (b : UInt8) (rest : List UInt8) : Except (Nat × Flaw) (Char × List UInt8) :=
  if b < 0x80 then .ok (Char.ofNat b.toNat, rest)
  else if b < 0xC2 || 0xF4 < b then .error (1, .invalidStart)
  else if b < 0xE0 then
    match rest with
    | [] => .error (1, .truncated)
    | c :: rest =>
      if isContinuation c then .ok (Char.ofNat ((b.toNat - 0xC0) * 64 + low c), rest)
      else .error (1, .invalidContinuation)
  else if b < 0xF0 then
    match rest with
    | [] => .error (1, .truncated)
    | [c] => if secondAllowed b c then .error (2, .truncated) else .error (1, .invalidContinuation)
    | c :: d :: rest =>
      if !secondAllowed b c then .error (1, .invalidContinuation)
      else if !isContinuation d then .error (2, .invalidContinuation)
      else .ok (Char.ofNat (((b.toNat - 0xE0) * 64 + low c) * 64 + low d), rest)
  else
    match rest with
    | [] => .error (1, .truncated)
    | [c] => if secondAllowed b c then .error (2, .truncated) else .error (1, .invalidContinuation)
    | [c, d] =>
      if !secondAllowed b c then .error (1, .invalidContinuation)
      else if !isContinuation d then .error (2, .invalidContinuation)
      else .error (3, .truncated)
    | c :: d :: e :: rest =>
      if !secondAllowed b c then .error (1, .invalidContinuation)
      else if !isContinuation d then .error (2, .invalidContinuation)
      else if !isContinuation e then .error (3, .invalidContinuation)
      else .ok (Char.ofNat ((((b.toNat - 0xF0) * 64 + low c) * 64 + low d) * 64 + low e), rest)

theorem length_of_head {b : UInt8} {rest : List UInt8} {c : Char} {rest' : List UInt8}
    (h : head b rest = .ok (c, rest')) : rest'.length ≤ rest.length := by
  unfold head at h
  repeat' split at h
  all_goals first
    | (cases h; done)
    | (simp only [Except.ok.injEq, Prod.mk.injEq] at h; obtain ⟨-, rfl⟩ := h; simp <;> omega)

/-- the characters of bytes that stand at an offset of the whole, and the bytes of a last character that is cut off; if
nothing follows, such a character is a flaw -/
def decodeFrom (isLast : Bool) (offset : Nat) (bytes : List UInt8) : Except Malformed (List Char × List UInt8) :=
  match bytes with
  | [] => .ok ([], [])
  | b :: rest =>
    match h : head b rest with
    | .error (n, flaw) =>
      if flaw = .truncated && !isLast then .ok ([], b :: rest) else .error ⟨offset, offset + n - 1, b, flaw⟩
    | .ok (c, rest') =>
      match decodeFrom isLast (offset + c.utf8Size) rest' with
      | .error e => .error e
      | .ok (cs, unfinished) => .ok (c :: cs, unfinished)
termination_by bytes.length
decreasing_by have := length_of_head h; simp; omega

/-- the characters that the bytes spell -/
def decode (bytes : List UInt8) : Except Malformed (List Char) := (decodeFrom true 0 bytes).map Prod.fst

/-- the bytes of one character -/
def encodeChar (c : Char) : List UInt8 := String.utf8EncodeChar c

/-- the bytes of a text -/
def encode (cs : List Char) : List UInt8 := cs.flatMap encodeChar

/-- one character for each byte, with the number of the byte -/
def oneCharPerByte (bytes : List UInt8) : List Char := bytes.map fun b => Char.ofNat b.toNat

end Brainfuck.Utf8
