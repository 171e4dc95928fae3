/-!
# Searching and cutting texts
-/

set_option autoImplicit false

namespace SellRules.Text

/-- Whether a text occurs, in one piece, in another. Both are given by their characters, or both by
their code points. -/
def occursIn {α : Type} [BEq α] (needle : List α) : List α → Bool
  | [] => needle.isEmpty
  | c :: cs => needle.isPrefixOf (c :: cs) || occursIn needle cs

theorem occursIn_nil {α : Type} [BEq α] (cs : List α) : occursIn [] cs = true := by
  cases cs <;> simp [occursIn]

/-- The pieces between the places where a character stands, empty ones included: one more than there
are such places. -/
def pieces (separator : Char) : List Char → List (List Char)
  | [] => [[]]
  | c :: cs =>
    if c = separator then [] :: pieces separator cs
    else (pieces separator cs).modifyHead (c :: ·)

theorem pieces_ne_nil (separator : Char) (cs : List Char) : pieces separator cs ≠ [] := by
  induction cs with
  | nil => simp [pieces]
  | cons c cs ih =>
    unfold pieces
    split
    · simp
    · simpa [List.modifyHead_eq_nil_iff] using ih

/-- Nothing is lost: the pieces with the separator between them are the text. -/
theorem intercalate_pieces (separator : Char) (cs : List Char) :
    [separator].intercalate (pieces separator cs) = cs := by
  induction cs with
  | nil => simp [pieces]
  | cons c cs ih =>
    unfold pieces
    cases h : pieces separator cs with
    | nil => exact absurd h (pieces_ne_nil separator cs)
    | cons piece rest =>
      rw [h] at ih
      split
      · next hc => rw [List.intercalate_cons_cons, ih, hc]; rfl
      · rw [← ih]
        cases rest <;> simp [List.intercalate_cons_cons]

end SellRules.Text
