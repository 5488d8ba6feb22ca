/-
Bytes in base 64.

Four characters of six bits make three bytes. Characters outside the alphabet are skipped; equals signs fill the last
four, and nothing after them counts. An end in the middle of four characters is a mistake.
-/

namespace Brainfuck.Yaml.Binary

def alphabet : List Char := "ABCDEFGHIJKLMNOPQRSTUVWXYZabcdefghijklmnopqrstuvwxyz0123456789+/".toList

/-- the six bits of a character -/
def sextet? (c : Char) : Option Nat := alphabet.findIdx? (· = c)

/-- the bytes from here on; `group` are the sextets of the four that are not complete, `fill` its equals signs -/
def decodeFrom (group : List Nat) (fill : Nat) : List Char → Option (List UInt8)
  | [] => if group.isEmpty then some [] else none
  | c :: cs =>
    if c = '=' then
      if 2 ≤ group.length && 4 ≤ group.length + fill + 1 then some []
      else decodeFrom group (if 2 ≤ group.length then fill + 1 else fill) cs
    else
      match sextet? c, group with
      | none, _ => decodeFrom group fill cs
      | some n, [] => decodeFrom [n] 0 cs
      | some n, [a] => (decodeFrom [a, n] 0 cs).map (UInt8.ofNat (a * 4 + n / 16) :: ·)
      | some n, [a, b] => (decodeFrom [a, b, n] 0 cs).map (UInt8.ofNat (b % 16 * 16 + n / 4) :: ·)
      | some n, _ :: _ :: c :: _ => (decodeFrom [] 0 cs).map (UInt8.ofNat (c % 4 * 64 + n) :: ·)

def decode (cs : List Char) : Option (List UInt8) := decodeFrom [] 0 cs

end Brainfuck.Yaml.Binary
