/-!
# Blanks and words

The characters that part words, what is left of a text without the blanks at its ends, and the words
of a text. A text is cut at every blank into segments; its words are the segments that hold anything.
-/

set_option autoImplicit false

namespace SellRules.Text

/-- The spaces of Unicode together with the line, paragraph and information separators. -/
def isBlank (c : Char) : Bool :=
  let n := c.toNat
  (0x09 ≤ n && n ≤ 0x0D) || (0x1C ≤ n && n ≤ 0x20) || n == 0x85 || n == 0xA0 || n == 0x1680 ||
    (0x2000 ≤ n && n ≤ 0x200A) || n == 0x2028 || n == 0x2029 || n == 0x202F || n == 0x205F ||
    n == 0x3000

theorem isBlank_of_isWhitespace {c : Char} (h : c.isWhitespace = true) : isBlank c = true := by
  simp only [Char.isWhitespace, Bool.or_eq_true, decide_eq_true_eq] at h
  rcases h with ((rfl | rfl) | rfl) | rfl <;> decide

/-- A list without the elements at its two ends that satisfy `p`. -/
def trimBy (p : Char → Bool) (cs : List Char) : List Char :=
  ((cs.dropWhile p).reverse.dropWhile p).reverse

/-- A text without the blanks at its two ends. -/
def trim (cs : List Char) : List Char := trimBy isBlank cs

/-- The pieces between blanks, empty ones included: one more than there are blanks. -/
def segments : List Char → List (List Char)
  | [] => [[]]
  | c :: cs => if isBlank c then [] :: segments cs else (segments cs).modifyHead (c :: ·)

theorem segments_ne_nil (cs : List Char) : segments cs ≠ [] := by
  induction cs with
  | nil => simp [segments]
  | cons c cs ih =>
    unfold segments
    split
    · simp
    · simpa [List.modifyHead_eq_nil_iff] using ih

/-- The maximal runs of characters that are not blank, in order. -/
def wordsOf (cs : List Char) : List (List Char) := (segments cs).filter (!·.isEmpty)

theorem ne_nil_of_mem_wordsOf {w cs : List Char} (h : w ∈ wordsOf cs) : w ≠ [] := by
  simp only [wordsOf, List.mem_filter] at h
  simpa using h.2

/-- The words of a string. -/
def words (s : String) : List String := (wordsOf s.toList).map String.ofList

end SellRules.Text
