import SellRules.Json.Reader
import SellRules.Proofs.Number.Numeral

/-!
# Numbers among other characters

How a number is read that stands in front of other characters: a whole one (`readNumber_whole`), and
one with a fraction or a power of ten (`readNumber_decimal`). The parts are read one after another,
each up to a character that it cannot hold.
-/

set_option autoImplicit false

namespace SellRules.Json

open Number (ofDigits withSign)

/-- What may follow a number: nothing, or a character that no number holds. -/
def EndsNumber (rest : List Char) : Prop :=
  ∀ c ∈ rest.head?, Text.isAsciiDigit c = false ∧ c ≠ '.' ∧ c ≠ 'e' ∧ c ≠ 'E'

theorem EndsNumber.endsDigits {rest : List Char} (h : EndsNumber rest) : Text.EndsDigits rest :=
  fun c hc => (h c hc).1

/-- A minus sign in front of a number below zero. -/
def signed (negative : Bool) (body : List Char) : List Char :=
  (if negative then ['-'] else []) ++ body

/-- Digits without a leading zero, but for zero itself. -/
structure IsWhole (whole : List Char) : Prop where
  digits : ∀ c ∈ whole, Text.isAsciiDigit c = true
  nonempty : whole ≠ []
  leading : whole = ['0'] ∨ whole.head? ≠ some '0'

theorem IsWhole.exists_cons {whole : List Char} (h : IsWhole whole) :
    ∃ c rest, whole = c :: rest ∧ Text.isAsciiDigit c = true := by
  obtain ⟨c, rest, rfl⟩ := List.exists_cons_of_ne_nil h.nonempty
  exact ⟨c, rest, rfl, h.digits c (by simp)⟩

theorem isWhole_digitsOf (n : Nat) : IsWhole (Number.digitsOf n) where
  digits _ := Number.isAsciiDigit_of_mem_digitsOf
  nonempty := Number.digitsOf_ne_nil n
  leading := by
    rcases Nat.eq_zero_or_pos n with rfl | h
    · exact .inl rfl
    · exact .inr (Number.head?_digitsOf_ne_zero h)

/-! ## Parts -/

theorem takeWhole_append {whole rest : List Char} (hwhole : IsWhole whole)
    (hrest : Text.EndsDigits rest) : takeWhole (whole ++ rest) = (whole, rest) := by
  rcases hwhole.leading with rfl | hleading
  · rfl
  · obtain ⟨c, cs, rfl, -⟩ := hwhole.exists_cons
    have hc : c ≠ '0' := by simpa using hleading
    unfold takeWhole
    split
    next heq => exact absurd (List.cons.inj heq).1 hc
    next => rw [Number.takeWhile_digits hwhole.digits hrest,
      Number.dropWhile_digits hwhole.digits hrest]

theorem takeFraction_of_ne_point {rest : List Char} (h : rest.head? ≠ some '.') :
    takeFraction rest = ([], rest) := by
  unfold takeFraction
  split
  · simp at h
  · rfl

theorem takeFraction_point {fraction rest : List Char}
    (hfraction : ∀ c ∈ fraction, Text.isAsciiDigit c = true) (hne : fraction ≠ [])
    (hrest : Text.EndsDigits rest) :
    takeFraction ('.' :: (fraction ++ rest)) = (fraction, rest) := by
  obtain ⟨d, cs, rfl⟩ := List.exists_cons_of_ne_nil hne
  have hcs : ∀ c ∈ cs, Text.isAsciiDigit c = true := fun c hc => hfraction c (by simp [hc])
  rw [List.cons_append, takeFraction, if_pos (hfraction d (by simp)),
    Number.takeWhile_digits hcs hrest, Number.dropWhile_digits hcs hrest]

theorem takeExponent_of_ends {rest : List Char} (h : EndsNumber rest) :
    takeExponent rest = (none, rest) := by
  cases rest with
  | nil => rfl
  | cons c rest =>
    obtain ⟨-, -, he, hE⟩ := h c rfl
    simp [takeExponent, he, hE]

theorem takeExponent_e (negative : Bool) {digits rest : List Char}
    (hdigits : ∀ c ∈ digits, Text.isAsciiDigit c = true) (hne : digits ≠ [])
    (hrest : Text.EndsDigits rest) :
    takeExponent ('e' :: (if negative then '-' else '+') :: (digits ++ rest)) =
      (some (withSign negative (ofDigits digits)), rest) := by
  have hsign : Number.takeSign ((if negative then '-' else '+') :: (digits ++ rest)) =
      (negative, digits ++ rest) := by
    cases negative <;> rfl
  simp only [takeExponent, hsign, Number.takeWhile_digits hdigits hrest,
    Number.dropWhile_digits hdigits hrest]
  simp [hne]

/-! ## Numbers -/

/-- A number is read part by part: the sign, the whole digits, the fraction and the power of ten. -/
theorem readNumber_signed {most : Nat} {negative : Bool}
    {whole after fraction rest rest' : List Char} {exponent : Option Int}
    (hwhole : IsWhole whole) (hends : Text.EndsDigits after) (hfraction : takeFraction after = (fraction, rest))
    (hexponent : takeExponent rest = (exponent, rest')) :
    readNumber most (signed negative (whole ++ after)) =
      if fraction = [] ∧ exponent = none then
        match Number.ofSignedDigits most negative whole with
        | .ok n => .ok (.int n, rest')
        | .error (.tooLong count) => .error (.tooManyDigits count)
        | .error .malformed => .error (.malformed .expectedValue (signed negative (whole ++ after)))
      else .ok (.float (Number.Binary64.ofDecimal negative (ofDigits (whole ++ fraction))
        (exponent.getD 0 - fraction.length)), rest') := by
  have htake := takeWhole_append hwhole hends
  obtain ⟨c, cs, rfl, hc⟩ := hwhole.exists_cons
  have hminus : c ≠ '-' := Text.ne_of_isAsciiDigit hc (by decide)
  rw [List.cons_append] at htake ⊢
  unfold readNumber
  cases negative with
  | true =>
    simp only [signed, ↓reduceIte, List.cons_append, List.nil_append, htake, hfraction, hexponent]
    cases fraction <;> cases exponent <;> rfl
  | false =>
    simp only [signed, Bool.false_eq_true, ↓reduceIte, List.nil_append]
    split
    next heq => exact absurd (List.cons.inj heq).1 hminus
    next =>
      simp only [htake, hfraction, hexponent]
      cases fraction <;> cases exponent <;> rfl

theorem signedDigits_eq (n : Int) :
    Number.signedDigits n = signed (decide (n < 0)) (Number.digitsOf n.natAbs) := by
  cases n with
  | ofNat n => rfl
  | negSucc n => simp [Number.signedDigits, signed, Int.negSucc_lt_zero]

/-- A whole number is read if it does not have too many digits. -/
theorem readNumber_whole {most : Nat} {n : Int}
    (hmost : (Number.digitsOf n.natAbs).length ≤ most) {rest : List Char}
    (hrest : EndsNumber rest) :
    readNumber most (Number.signedDigits n ++ rest) = .ok (.int n, rest) := by
  have hpoint : rest.head? ≠ some '.' := fun h => (hrest '.' h).2.1 rfl
  have hdigits :
      Number.ofSignedDigits most (decide (n < 0)) (Number.digitsOf n.natAbs) = .ok n := by
    rw [Number.ofSignedDigits, if_neg (by omega), Number.ofDigits_digitsOf,
      Number.withSign_natAbs]
  rw [signedDigits_eq, signed, List.append_assoc, ← signed,
    readNumber_signed (isWhole_digitsOf _) hrest.endsDigits (takeFraction_of_ne_point hpoint)
      (takeExponent_of_ends hrest), if_pos ⟨rfl, rfl⟩, hdigits]

/-- The part of a number after its whole digits: a point with digits, and a power of ten. -/
def tail (fraction : List Char) (exponent : Option (Bool × List Char)) : List Char :=
  (if fraction = [] then [] else '.' :: fraction) ++
    match exponent with
    | none => []
    | some (negative, digits) => 'e' :: (if negative then '-' else '+') :: digits

/-- A number with a fraction or a power of ten is read with double precision. -/
theorem readNumber_decimal (most : Nat) (negative : Bool) {whole fraction rest : List Char}
    {exponent : Option (Bool × List Char)} (hwhole : IsWhole whole)
    (hfraction : ∀ c ∈ fraction, Text.isAsciiDigit c = true)
    (hexponent : ∀ e ∈ exponent, e.2 ≠ [] ∧ ∀ c ∈ e.2, Text.isAsciiDigit c = true)
    (hparts : fraction ≠ [] ∨ exponent ≠ none) (hrest : EndsNumber rest) :
    readNumber most (signed negative whole ++ tail fraction exponent ++ rest) =
      .ok (.float (Number.Binary64.ofDecimal negative (ofDigits (whole ++ fraction))
        ((exponent.elim 0 fun e => withSign e.1 (ofDigits e.2)) - fraction.length)), rest) := by
  -- After the digits of one part comes the sign of the next or the end of the number.
  have hafter : ∃ after, tail fraction exponent ++ rest =
      (if fraction = [] then [] else '.' :: fraction) ++ after ∧ Text.EndsDigits after ∧
      after.head? ≠ some '.' ∧
      takeExponent after = (exponent.map fun e => withSign e.1 (ofDigits e.2), rest) := by
    cases exponent with
    | none =>
      exact ⟨rest, by simp [tail], hrest.endsDigits, fun h => (hrest '.' h).2.1 rfl,
        takeExponent_of_ends hrest⟩
    | some e =>
      obtain ⟨hne, hdigits⟩ := hexponent e rfl
      refine ⟨'e' :: (if e.1 then '-' else '+') :: (e.2 ++ rest), by simp [tail], ?_, by simp,
        takeExponent_e e.1 hdigits hne hrest.endsDigits⟩
      rintro c ⟨⟩
      decide
  obtain ⟨after, htail, hends, hpoint, hexp⟩ := hafter
  have hfractionEnds :
      Text.EndsDigits ((if fraction = [] then [] else '.' :: fraction) ++ after) := by
    split
    · exact hends
    · rintro c ⟨⟩
      decide
  have htake : takeFraction ((if fraction = [] then [] else '.' :: fraction) ++ after) =
      (fraction, after) := by
    split
    next h => rw [h]; exact takeFraction_of_ne_point hpoint
    next h => exact takeFraction_point hfraction h hends
  have hnot : ¬ (fraction = [] ∧ (exponent.map fun e => withSign e.1 (ofDigits e.2)) = none) := by
    rintro ⟨rfl, hnone⟩
    exact hparts.elim (· rfl) (· (Option.map_eq_none_iff.1 hnone))
  rw [signed, List.append_assoc, List.append_assoc, htail, ← signed,
    readNumber_signed hwhole hfractionEnds htake hexp, if_neg hnot]
  cases exponent <;> rfl

/-- A text is a number with a fraction or a power of ten that is read as `x`. -/
structure IsDecimal (text : List Char) (x : Number.Binary64) : Prop where
  parts : ∃ negative whole fraction exponent,
    text = signed negative whole ++ tail fraction exponent ∧ IsWhole whole ∧
    (∀ c ∈ fraction, Text.isAsciiDigit c = true) ∧
    (∀ e ∈ exponent, e.2 ≠ [] ∧ ∀ c ∈ e.2, Text.isAsciiDigit c = true) ∧
    (fraction ≠ [] ∨ exponent ≠ none) ∧
    Number.Binary64.ofDecimal negative (ofDigits (whole ++ fraction))
      ((exponent.elim 0 fun e => withSign e.1 (ofDigits e.2)) - fraction.length) = x

end SellRules.Json
