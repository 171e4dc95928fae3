import Mathlib.Data.List.DropRight
import SellRules.Text.Blank

/-!
# Words between blanks

The words of a text that was put together from words and blanks are those words
(`Text.words_of_spaced`): how many blanks stand before, between and behind them, and of which kind,
makes no difference. Only a text of blanks alone is trimmed to nothing (`Text.trim_eq_nil_iff`), and
one without blanks is not trimmed at all.
-/

set_option autoImplicit false

namespace SellRules.Text

/-- At least one character and no blank. -/
def IsWord (cs : List Char) : Prop := cs ≠ [] ∧ ∀ c ∈ cs, isBlank c = false

/-- A text made of words in order, with blanks between any two of them and perhaps at its ends. -/
inductive Spaced : List (List Char) → List Char → Prop
  | blanks {gap : List Char} (hgap : ∀ c ∈ gap, isBlank c = true) : Spaced [] gap
  | word (gap rest : List Char) {word : List Char} {words : List (List Char)}
      (hgap : ∀ c ∈ gap, isBlank c = true) (hends : ∀ c ∈ rest.head?, isBlank c = true)
      (hrest : Spaced words rest) : Spaced (word :: words) (gap ++ (word ++ rest))

theorem ne_of_isBlank {c d : Char} (hc : isBlank c = true) (hd : isBlank d = false) : c ≠ d :=
  ne_of_apply_ne isBlank (by rw [hc, hd]; decide)

/-! ## Words -/

theorem wordsOf_cons_of_isBlank {c : Char} (hc : isBlank c = true) (cs : List Char) :
    wordsOf (c :: cs) = wordsOf cs := by
  simp [wordsOf, segments, hc]

theorem wordsOf_gap_append {gap : List Char} (hgap : ∀ c ∈ gap, isBlank c = true)
    (cs : List Char) : wordsOf (gap ++ cs) = wordsOf cs := by
  induction gap with
  | nil => rfl
  | cons c gap ih =>
    rw [List.cons_append, wordsOf_cons_of_isBlank (hgap c (by simp)),
      ih fun c hc => hgap c (by simp [hc])]

/-- Characters that are not blank belong to the first segment. -/
theorem segments_append {word : List Char} (hword : ∀ c ∈ word, isBlank c = false)
    (cs : List Char) : segments (word ++ cs) = (segments cs).modifyHead (word ++ ·) := by
  induction word with
  | nil => cases hs : segments cs <;> simp [hs]
  | cons c word ih =>
    have hc := hword c (by simp)
    rw [List.cons_append, segments, if_neg (by simp [hc]), ih fun c hc => hword c (by simp [hc]),
      List.modifyHead_modifyHead]
    rfl

theorem wordsOf_append {word rest : List Char} (hword : IsWord word)
    (hends : ∀ c ∈ rest.head?, isBlank c = true) :
    wordsOf (word ++ rest) = word :: wordsOf rest := by
  obtain ⟨hne, hword⟩ := hword
  rw [wordsOf, segments_append hword]
  cases rest with
  | nil => simp [wordsOf, segments, hne]
  | cons c rest => simp [wordsOf, segments, hends c rfl, hne]

/-- The words of a text are those that it was put together from. -/
theorem wordsOf_of_spaced {words : List (List Char)} {cs : List Char}
    (hwords : ∀ w ∈ words, IsWord w) (h : Spaced words cs) : wordsOf cs = words := by
  induction h with
  | blanks hgap => simpa [wordsOf, segments] using wordsOf_gap_append hgap []
  | word _ _ hgap hends _ ih =>
    rw [wordsOf_gap_append hgap, wordsOf_append (hwords _ (by simp)) hends,
      ih fun w hw => hwords w (by simp [hw])]

theorem words_of_spaced {ws : List String} {s : String} (hwords : ∀ w ∈ ws, IsWord w.toList)
    (h : Spaced (ws.map String.toList) s.toList) : words s = ws := by
  have hall : ∀ w ∈ ws.map String.toList, IsWord w := by
    simpa [List.mem_map] using hwords
  rw [words, wordsOf_of_spaced hall h, List.map_map]
  exact List.map_id'' (fun w => String.ofList_toList) ws

theorem exists_spaced (words : List (List Char)) : ∃ cs, Spaced words cs := by
  have hexists : ∃ cs, Spaced words cs ∧ ∀ c ∈ cs.head?, isBlank c = true := by
    induction words with
    | nil => exact ⟨[], .blanks (by simp), by simp⟩
    | cons word words ih =>
      obtain ⟨rest, hrest, hends⟩ := ih
      have hspace : isBlank ' ' = true := by decide
      exact ⟨_, .word [' '] rest (by simpa using hspace) hends hrest, by simpa using hspace⟩
  obtain ⟨cs, hcs, -⟩ := hexists
  exact ⟨cs, hcs⟩

/-! ## Trimming -/

/-- Nothing but blanks is trimmed to nothing. -/
theorem trim_eq_nil_iff {cs : List Char} : trim cs = [] ↔ ∀ c ∈ cs, isBlank c = true := by
  rw [trim, trimBy, List.reverse_eq_nil_iff, List.dropWhile_eq_nil_iff]
  constructor
  · intro h
    have hall : ∀ c ∈ cs.dropWhile isBlank, isBlank c = true := by simpa using h
    rw [← List.dropWhile_eq_nil_iff, List.dropWhile_idempotent] at hall
    exact List.dropWhile_eq_nil_iff.1 hall
  · intro h c hc
    exact h c ((List.dropWhile_sublist isBlank).mem (List.mem_reverse.1 hc))

theorem dropWhile_eq_self {cs : List Char} (h : ∀ c ∈ cs, isBlank c = false) :
    cs.dropWhile isBlank = cs := by
  cases cs with
  | nil => rfl
  | cons c cs => rw [List.dropWhile_cons, if_neg (by simp [h c])]

theorem trim_eq_self {cs : List Char} (h : ∀ c ∈ cs, isBlank c = false) : trim cs = cs := by
  rw [trim, trimBy, dropWhile_eq_self h, dropWhile_eq_self (by simpa using h), List.reverse_reverse]

end SellRules.Text
