import Mathlib.Tactic.IntervalCases
import Mathlib.Tactic.Ring
import SellRules.Number.Numeral

/-!
# Digits of whole numbers

What the written form of a whole number consists of: ASCII digits, no leading zero but for zero
itself, and no more of them than the number has. A run of digits ends where a character follows that
is no digit. What is read as a plain numeral is exactly a sign, if any, and some digits, but not too
many (`Number.readPlain_eq_ok_iff`).
-/

set_option autoImplicit false

namespace SellRules

/-- What may follow a run of digits: nothing, or a character that is no digit. -/
def Text.EndsDigits (rest : List Char) : Prop := ∀ c ∈ rest.head?, isAsciiDigit c = false

theorem Text.ne_of_isAsciiDigit {c d : Char} (hc : isAsciiDigit c = true)
    (hd : isAsciiDigit d = false) : c ≠ d :=
  ne_of_apply_ne isAsciiDigit (by rw [hc, hd]; decide)

namespace Number

theorem isAsciiDigit_eq_isDigit (c : Char) : Text.isAsciiDigit c = c.isDigit := by
  simp [Text.isAsciiDigit, Char.isDigit, Char.le_def]

theorem isAsciiDigit_of_mem_digitsOf {n : Nat} {c : Char} (h : c ∈ digitsOf n) :
    Text.isAsciiDigit c = true :=
  (isAsciiDigit_eq_isDigit c).trans (Nat.isDigit_of_mem_toDigits (by decide) (by decide) h)

theorem digitsOf_ne_nil (n : Nat) : digitsOf n ≠ [] := Nat.toDigits_ne_nil

theorem length_digitsOf_le_iff {n k : Nat} (hk : 0 < k) : (digitsOf n).length ≤ k ↔ n < 10 ^ k :=
  Nat.length_toDigits_le_iff (by decide) hk

theorem digitsOf_eq (n : Nat) :
    digitsOf n = if n < 10 then [n.digitChar] else digitsOf (n / 10) ++ [(n % 10).digitChar] :=
  Nat.toDigits_eq_if (by decide)

/-- A number above zero is written without a leading zero. -/
theorem head?_digitsOf_ne_zero {n : Nat} (h : 0 < n) : (digitsOf n).head? ≠ some '0' := by
  induction n using Nat.strongRecOn with
  | _ n ih =>
    rw [digitsOf_eq]
    split
    · interval_cases n <;> decide
    · have hhead := ih (n / 10) (by omega) (by omega)
      rw [List.head?_append]
      cases hdigits : (digitsOf (n / 10)).head? with
      | none => exact absurd (List.head?_eq_none_iff.1 hdigits) (digitsOf_ne_nil _)
      | some c => simpa [hdigits] using hhead

/-- A number that is short enough to be shown is short enough to be read. -/
theorem length_digitsOf_of_isShown {n : Int} (h : isShown n = true) :
    (digitsOf n.natAbs).length ≤ maxDigits := by
  have hmost : 0 < maxDigits := by decide
  unfold isShown leastUnshown at h
  generalize maxDigits = most at h hmost ⊢
  exact (length_digitsOf_le_iff hmost).2 (of_decide_eq_true h)

/-! ## The number that digits stand for -/

theorem ofDigitChars_eq (digits : List Char) (start : Nat) :
    Nat.ofDigitChars 10 digits start = start * 10 ^ digits.length + ofDigits digits := by
  induction digits generalizing start with
  | nil => simp [ofDigits]
  | cons c digits ih =>
    rw [ofDigits, Nat.ofDigitChars_cons, Nat.ofDigitChars_cons, ih, ih (10 * 0 + _),
      List.length_cons]
    ring

theorem ofDigits_append (a b : List Char) :
    ofDigits (a ++ b) = ofDigits a * 10 ^ b.length + ofDigits b := by
  rw [ofDigits, Nat.ofDigitChars_append, ofDigitChars_eq]
  rfl

@[simp] theorem ofDigits_replicate_zero (k : Nat) : ofDigits (List.replicate k '0') = 0 := by
  induction k with
  | zero => rfl
  | succ k ih =>
    rw [List.replicate_succ, ofDigits, Nat.ofDigitChars_cons]
    exact ih

theorem withSign_natAbs (n : Int) : withSign (decide (n < 0)) n.natAbs = n := by
  unfold withSign
  by_cases h : n < 0
  · rw [decide_eq_true h, if_pos rfl]
    omega
  · rw [decide_eq_false h, if_neg Bool.false_ne_true]
    omega

theorem natAbs_withSign (negative : Bool) (n : Nat) : (withSign negative n).natAbs = n := by
  cases negative <;> simp [withSign]

/-- Digits stand for less than the power of ten with as many zeros. -/
theorem ofDigits_lt {digits : List Char} (h : ∀ c ∈ digits, Text.isAsciiDigit c = true) :
    ofDigits digits < 10 ^ digits.length := by
  induction digits with
  | nil => simp [ofDigits]
  | cons c digits ih =>
    have htail := ih fun x hx => h x (by simp [hx])
    have hc : 10 * 0 + (c.toNat - '0'.toNat) + 1 ≤ 10 := by
      have hdigit := h c (by simp)
      rw [isAsciiDigit_eq_isDigit] at hdigit
      have hrange : 0x30 ≤ c.toNat ∧ c.toNat ≤ 0x39 := by
        simpa [Char.isDigit, UInt32.le_iff_toNat_le] using hdigit
      have hzero : '0'.toNat = 0x30 := rfl
      omega
    rw [ofDigits, Nat.ofDigitChars_cons, ofDigitChars_eq, List.length_cons]
    generalize 10 * 0 + (c.toNat - '0'.toNat) = first at hc ⊢
    calc first * 10 ^ digits.length + ofDigits digits
        < (first + 1) * 10 ^ digits.length := by
          rw [add_mul, one_mul]
          omega
      _ ≤ 10 * 10 ^ digits.length := Nat.mul_le_mul_right _ hc
      _ = 10 ^ (digits.length + 1) := by ring

/-- A numeral that is not refused can be shown. -/
theorem isShown_of_ofSignedDigits {negative : Bool} {digits : List Char} {n : Int}
    (hdigits : ∀ c ∈ digits, Text.isAsciiDigit c = true)
    (h : ofSignedDigits maxDigits negative digits = .ok n) : isShown n = true := by
  unfold ofSignedDigits at h
  split at h
  · cases h
  · rename_i hlength
    cases h
    unfold isShown leastUnshown
    rw [natAbs_withSign, decide_eq_true_eq]
    generalize maxDigits = most at hlength ⊢
    exact (ofDigits_lt hdigits).trans_le (Nat.pow_le_pow_right (by decide) (by omega))

theorem isShown_of_readPlain {cs : List Char} {n : Int} (h : readPlain cs = .ok n) :
    isShown n = true := by
  unfold readPlain at h
  dsimp only at h
  split at h
  · cases h
  · rename_i hdigits
    simp only [Bool.or_eq_true, Bool.not_eq_true', not_or, Bool.not_eq_false] at hdigits
    exact isShown_of_ofSignedDigits (fun c hc => List.all_eq_true.1 hdigits.2 c hc) h

/-! ## Runs of digits -/

variable {digits rest : List Char}

theorem takeWhile_digits (hdigits : ∀ c ∈ digits, Text.isAsciiDigit c = true)
    (hrest : Text.EndsDigits rest) : (digits ++ rest).takeWhile Text.isAsciiDigit = digits := by
  rw [List.takeWhile_append_of_pos hdigits]
  cases rest with
  | nil => simp
  | cons c rest => simp [hrest c rfl]

theorem dropWhile_digits (hdigits : ∀ c ∈ digits, Text.isAsciiDigit c = true)
    (hrest : Text.EndsDigits rest) : (digits ++ rest).dropWhile Text.isAsciiDigit = rest := by
  rw [List.dropWhile_append_of_pos hdigits]
  cases rest with
  | nil => simp
  | cons c rest => simp [hrest c rfl]

/-! ## Numerals without a sign -/

/-- Digits that stand for a number: at least one, and no more than a numeral may have. Leading zeros
count. -/
structure IsNumeral (digits : List Char) (n : Int) : Prop where
  nonempty : digits ≠ []
  ascii : ∀ c ∈ digits, Text.isAsciiDigit c = true
  length : digits.length ≤ maxDigits
  value : n = ofDigits digits

theorem isNumeral_digitsOf {n : Int} (hn : 0 ≤ n) (hshown : isShown n = true) :
    IsNumeral (digitsOf n.natAbs) n where
  nonempty := digitsOf_ne_nil _
  ascii _ := isAsciiDigit_of_mem_digitsOf
  length := length_digitsOf_of_isShown hshown
  value := by rw [ofDigits_digitsOf, Int.natAbs_of_nonneg hn]

theorem isBlank_of_isAsciiDigit {c : Char} (h : Text.isAsciiDigit c = true) :
    Text.isBlank c = false := by
  rw [isAsciiDigit_eq_isDigit] at h
  have hrange : 0x30 ≤ c.toNat ∧ c.toNat ≤ 0x39 := by
    simpa [Char.isDigit, UInt32.le_iff_toNat_le] using h
  simp only [Text.isBlank, Bool.or_eq_false_iff, Bool.and_eq_false_iff, decide_eq_false_iff_not,
    beq_eq_false_iff_ne]
  omega

variable {n : Int}

theorem IsNumeral.not_blank (h : IsNumeral digits n) : ∀ c ∈ digits, Text.isBlank c = false :=
  fun c hc => isBlank_of_isAsciiDigit (h.ascii c hc)

theorem IsNumeral.ofSignedDigits_eq (h : IsNumeral digits n) :
    ofSignedDigits maxDigits false digits = .ok n := by
  rw [ofSignedDigits, if_neg (Nat.not_lt.2 h.length), h.value]
  rfl

theorem IsNumeral.readPlain_eq (h : IsNumeral digits n) : readPlain digits = .ok n := by
  have hsign : takeSign digits = (false, digits) := by
    obtain ⟨c, cs, rfl⟩ := List.exists_cons_of_ne_nil h.nonempty
    exact takeSign_of_isDigit ((isAsciiDigit_eq_isDigit c).symm.trans (h.ascii c (by simp))) cs
  have hempty : digits.isEmpty = false := by simpa using h.nonempty
  have hall : digits.all Text.isAsciiDigit = true := List.all_eq_true.2 h.ascii
  simp only [readPlain, hsign, hempty, hall, h.ofSignedDigits_eq, Bool.not_true, Bool.or_self,
    Bool.false_eq_true, ↓reduceIte]

/-! ## Numerals with a sign -/

/-- A numeral with a sign in front of it or none. -/
inductive IsSigned : List Char → Int → Prop
  | plain {digits : List Char} {n : Int} (h : IsNumeral digits n) : IsSigned digits n
  | plus {digits : List Char} {n : Int} (h : IsNumeral digits n) : IsSigned ('+' :: digits) n
  | minus {digits : List Char} {n : Int} (h : IsNumeral digits n) : IsSigned ('-' :: digits) (-n)

/-- Digits that give a number are a numeral. -/
theorem isNumeral_of_ofSignedDigits {negative : Bool}
    (hdigits : ¬ (digits.isEmpty || !digits.all Text.isAsciiDigit) = true)
    (h : ofSignedDigits maxDigits negative digits = .ok n) :
    IsNumeral digits (ofDigits digits) ∧ n = withSign negative (ofDigits digits) := by
  simp only [Bool.or_eq_true, Bool.not_eq_true', not_or, Bool.not_eq_false,
    List.isEmpty_iff] at hdigits
  unfold ofSignedDigits at h
  split at h
  · cases h
  · rename_i hlength
    cases h
    exact ⟨⟨hdigits.1, fun c hc => List.all_eq_true.1 hdigits.2 c hc, Nat.not_lt.1 hlength, rfl⟩,
      rfl⟩

/-- Exactly the numerals with a sign or none are read as plain numerals. -/
theorem readPlain_eq_ok_iff {cs : List Char} : readPlain cs = .ok n ↔ IsSigned cs n := by
  constructor
  · intro h
    unfold readPlain takeSign at h
    split at h
    rename_i negative digits hsign
    split at h
    · cases h
    · rename_i hdigits
      obtain ⟨hnumeral, rfl⟩ := isNumeral_of_ofSignedDigits hdigits h
      split at hsign <;> cases hsign
      · exact .minus hnumeral
      · exact .plus hnumeral
      · exact .plain hnumeral
  · intro h
    have hread (negative : Bool) {digits : List Char} {m : Int} (hm : IsNumeral digits m) :
        (if digits.isEmpty || !digits.all Text.isAsciiDigit then .error .malformed
          else ofSignedDigits maxDigits negative digits) =
            .ok (withSign negative (ofDigits digits)) := by
      have hempty : digits.isEmpty = false := by simpa using hm.nonempty
      have hall : digits.all Text.isAsciiDigit = true := List.all_eq_true.2 hm.ascii
      simp only [hempty, hall, ofSignedDigits, if_neg (Nat.not_lt.2 hm.length), Bool.not_true,
        Bool.or_self, Bool.false_eq_true, ↓reduceIte]
    cases h with
    | plain hm => exact hm.readPlain_eq
    | plus hm =>
      rw [hm.value]
      exact hread false hm
    | minus hm =>
      rw [hm.value]
      exact hread true hm

end Number
end SellRules
