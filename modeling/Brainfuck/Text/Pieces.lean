/-
A text in bytes that is taken piece by piece.

`pieces` cuts a text into pieces of so many characters. Bytes are decoded in chunks, of which each is as large as the
last one makes it likely that the wanted characters need; where a chunk is no text, the pieces end before the one that
would have needed it.
-/
import Brainfuck.Text.Chunks

namespace Brainfuck

/-- how far a text has been taken -/
structure PieceReader where
  /-- the bytes that are still to be decoded -/
  rest : List UInt8
  decoder : Decoder := {}
  /-- characters that are decoded and not taken yet -/
  ready : List Char := []
  /-- how many bytes a character of the last chunk has on average -/
  density : Float := 0.0

namespace PieceReader

/-- the size of the chunk to decode when so many characters are wanted -/
def chunkSize (x : PieceReader) (wanted : Nat) : Nat :=
  max Decoder.chunkSize (max x.density 1.0 * wanted.toFloat).toUInt64.toNat

/-- decode a chunk for so many characters; those that were ready before must have been taken -/
def fill (x : PieceReader) (wanted : Nat) : Except Utf8.Malformed PieceReader :=
  let chunk := x.rest.take (x.chunkSize wanted)
  (x.decoder.feed chunk).map fun (chars, decoder) =>
    let density := if chars.isEmpty then 0.0 else chunk.length.toFloat / chars.length.toFloat
    ⟨x.rest.drop (x.chunkSize wanted), decoder, chars, density⟩

/-- a chunk takes bytes away while there are any -/
theorem length_rest_of_fill {x y : PieceReader} {wanted : Nat} (hx : x.rest ≠ []) (h : x.fill wanted = .ok y) :
    y.rest.length < x.rest.length := by
  have pos : 0 < x.chunkSize wanted :=
    Nat.lt_of_lt_of_le (by decide : 0 < Decoder.chunkSize) (Nat.le_max_left ..)
  have := List.length_pos_iff.2 hx
  unfold fill at h
  cases hf : x.decoder.feed (x.rest.take (x.chunkSize wanted)) with
  | error e => simp [hf, Except.map] at h
  | ok r =>
    simp only [hf, Except.map, Except.ok.injEq] at h
    subst h
    simp only [List.length_drop]
    omega

/-- the next characters, as many as are wanted unless the text ends -/
def take (wanted : Nat) (x : PieceReader) : Except Utf8.Malformed (List Char × PieceReader) :=
  if x.ready.length < wanted then
    let missing := wanted - x.ready.length
    if hx : x.rest = [] then
      (x.fill missing).map fun y => (x.ready ++ y.ready.take missing, { y with ready := y.ready.drop missing })
    else
      match h : x.fill missing with
      | .error e => .error e
      | .ok y =>
        have := length_rest_of_fill hx h
        (take missing y).map fun (more, z) => (x.ready ++ more, z)
  else .ok (x.ready.take wanted, { x with ready := x.ready.drop wanted })
termination_by x.rest.length

end PieceReader

/-- a text in pieces of so many characters, up to the first that cannot be decoded, and why it cannot -/
def pieces (size : Nat) (bytes : List UInt8) : List (List Char) × Option Utf8.Malformed :=
  go (bytes.length + 1) { rest := bytes }
where
  go : Nat → PieceReader → List (List Char) × Option Utf8.Malformed
    | 0, _ => ([], none)
    | fuel + 1, x =>
      match x.take size with
      | .error e => ([], some e)
      | .ok (piece, x) =>
        if piece.isEmpty then ([], none)
        else
          let (more, flaw) := go fuel x
          (piece :: more, flaw)

end Brainfuck
