/-
Blank characters and the cuts made at them.

`isBlank` holds of the 29 characters of Unicode that count as white space or as line and information separators.
`strip` drops them at both ends and `words` cuts a text at every run of them; `words_strip` says that the blanks at the
ends of a text make no difference to its words.
-/

namespace Brainfuck

/-- white space: the six ASCII blanks, the four information separators and the Unicode spaces -/
def isBlank (c : Char) : Bool :=
  let n := c.toNat
  (9 ≤ n && n ≤ 13) || (28 ≤ n && n ≤ 32) || n == 0x85 || n == 0xA0 || n == 0x1680 || (0x2000 ≤ n && n ≤ 0x200A) ||
    n == 0x2028 || n == 0x2029 || n == 0x202F || n == 0x205F || n == 0x3000

/-- the text after its leading characters that satisfy `p`, and before its trailing ones -/
def trim (p : Char → Bool) (cs : List Char) : List Char :=
  ((cs.dropWhile p).reverse.dropWhile p).reverse

/-- the text without the blanks at its ends -/
def strip (cs : List Char) : List Char := trim isBlank cs

/-- the longest runs of characters that are not blank, in order -/
def words (cs : List Char) : List (List Char) := go [] cs
where
  /-- the word read so far is kept reversed -/
  go (word : List Char) : List Char → List (List Char)
    | [] => if word.isEmpty then [] else [word.reverse]
    | c :: cs =>
      if isBlank c then
        if word.isEmpty then go [] cs else word.reverse :: go [] cs
      else go (c :: word) cs

theorem words_dropWhile (cs : List Char) : words (cs.dropWhile isBlank) = words cs := by
  induction cs with
  | nil => rfl
  | cons c cs ih =>
    cases hc : isBlank c with
    | true =>
      rw [List.dropWhile_cons_of_pos hc, ih]
      simp only [words, words.go, hc, if_true, List.isEmpty_nil]
    | false => rw [List.dropWhile_cons_of_neg (by simp [hc])]

theorem words.go_append_blanks (word cs : List Char) {blanks : List Char} (h : ∀ c ∈ blanks, isBlank c = true) :
    words.go word (cs ++ blanks) = words.go word cs := by
  induction cs generalizing word with
  | nil =>
    induction blanks generalizing word with
    | nil => rfl
    | cons c blanks ih =>
      have hblanks : words.go [] ([] ++ blanks) = [] := ih (fun c hc => h c (List.mem_cons_of_mem _ hc)) []
      simp only [List.nil_append] at hblanks
      simp only [List.nil_append, words.go, h c List.mem_cons_self, if_true, hblanks]
  | cons c cs ih =>
    simp only [List.cons_append, words.go, ih]

/-- the blanks at the ends of a text belong to no word -/
theorem words_strip (cs : List Char) : words (strip cs) = words cs := by
  have hblanks : ∀ c ∈ ((cs.dropWhile isBlank).reverse.takeWhile isBlank).reverse, isBlank c = true := by
    intro c hc
    exact List.all_eq_true.1 List.all_takeWhile c (List.mem_reverse.1 hc)
  have hcut : cs.dropWhile isBlank = strip cs ++ ((cs.dropWhile isBlank).reverse.takeWhile isBlank).reverse := by
    rw [strip, trim, ← List.reverse_append, List.takeWhile_append_dropWhile, List.reverse_reverse]
  calc words (strip cs)
      = words (strip cs ++ ((cs.dropWhile isBlank).reverse.takeWhile isBlank).reverse) :=
        (words.go_append_blanks [] (strip cs) hblanks).symm
    _ = words (cs.dropWhile isBlank) := by rw [← hcut]
    _ = words cs := words_dropWhile cs

/-- the capital ASCII letters made small; all else is kept -/
def lowerAscii (cs : List Char) : List Char := cs.map Char.toLower

end Brainfuck
