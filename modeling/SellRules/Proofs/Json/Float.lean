import SellRules.Json.Writer
import SellRules.Proofs.Json.Number
import SellRules.Proofs.Number.Shortest

/-!
# Written numbers of double precision

The text of a number of double precision spells the digits of a decimal that rounds to it, with a
point among them or with a power of ten (`Spells`). Read as a decimal it is that number again
(`isDecimal_writeFloat`).
-/

set_option autoImplicit false

namespace SellRules.Json

open Number (Binary64 digitsOf ofDigits withSign)

/-- A text spells the decimal `n * 10 ^ g`. -/
def Spells (text : List Char) (n : Nat) (g : Int) : Prop :=
  ∃ whole fraction exponent, text = whole ++ tail fraction exponent ∧ IsWhole whole ∧
    (∀ c ∈ fraction, Text.isAsciiDigit c = true) ∧
    (∀ e ∈ exponent, e.2 ≠ [] ∧ ∀ c ∈ e.2, Text.isAsciiDigit c = true) ∧
    (fraction ≠ [] ∨ exponent ≠ none) ∧
    (ofDigits (whole ++ fraction) : ℚ) *
      10 ^ ((exponent.elim 0 fun e => withSign e.1 (ofDigits e.2)) - fraction.length) = n * 10 ^ g

/-- The first digits of a number above zero are whole digits. -/
theorem isWhole_of_prefix {n : Nat} (hn : 0 < n) {whole : List Char} (hne : whole ≠ [])
    (hstarts : whole <+: digitsOf n) : IsWhole whole where
  digits c hc := Number.isAsciiDigit_of_mem_digitsOf (hstarts.subset hc)
  nonempty := hne
  leading := by
    obtain ⟨c, cs, rfl⟩ := List.exists_cons_of_ne_nil hne
    obtain ⟨rest, hrest⟩ := hstarts
    refine .inr fun hzero => Number.head?_digitsOf_ne_zero hn ?_
    rw [← hrest]
    exact hzero

/-! ## Positional and scientific texts -/

theorem tail_point {fraction : List Char} (h : fraction ≠ []) :
    tail fraction none = '.' :: fraction := by
  simp [tail, h]

theorem isAsciiDigit_of_mem_replicate {k : Nat} {c : Char} (h : c ∈ List.replicate k '0') :
    Text.isAsciiDigit c = true := by
  rw [List.eq_of_mem_replicate h]
  decide

/-- All digits stand behind the point. -/
theorem spells_behind (n : Nat) {place : Int} (hplace : place ≤ 0) :
    Spells ('0' :: '.' :: (List.replicate (-place).toNat '0' ++ digitsOf n)) n
      (place - (digitsOf n).length) := by
  have hne : List.replicate (-place).toNat '0' ++ digitsOf n ≠ [] := by
    simp [Number.digitsOf_ne_nil n]
  have hvalue : ofDigits (['0'] ++ (List.replicate (-place).toNat '0' ++ digitsOf n)) = n := by
    rw [Number.ofDigits_append, Number.ofDigits_append, Number.ofDigits_replicate_zero,
      Number.ofDigits_digitsOf]
    simp [ofDigits, Nat.ofDigitChars]
  refine ⟨['0'], List.replicate (-place).toNat '0' ++ digitsOf n, none, ?_, isWhole_digitsOf 0, ?_,
    by simp, .inl hne, ?_⟩
  · rw [tail_point hne]
    rfl
  · intro c hc
    rcases List.mem_append.1 hc with hc | hc
    · exact isAsciiDigit_of_mem_replicate hc
    · exact Number.isAsciiDigit_of_mem_digitsOf hc
  · rw [hvalue]
    congr 2
    simp only [Option.elim_none, List.length_append, List.length_replicate]
    push_cast
    omega

/-- All digits stand in front of the point. -/
theorem spells_before {n : Nat} (hn : 0 < n) {place : Int} (hplace : 0 < place)
    (hlength : (digitsOf n).length ≤ place.toNat) :
    Spells (digitsOf n ++ List.replicate (place.toNat - (digitsOf n).length) '0' ++ ['.', '0']) n
      (place - (digitsOf n).length) := by
  have hne := Number.digitsOf_ne_nil n
  have hvalue : ofDigits (digitsOf n ++
      List.replicate (place.toNat - (digitsOf n).length) '0' ++ ['0']) =
        n * 10 ^ (place.toNat - (digitsOf n).length) * 10 := by
    rw [Number.ofDigits_append, Number.ofDigits_append, Number.ofDigits_replicate_zero,
      Number.ofDigits_digitsOf, List.length_replicate]
    simp [ofDigits, Nat.ofDigitChars]
  refine ⟨digitsOf n ++ List.replicate (place.toNat - (digitsOf n).length) '0', ['0'], none, ?_,
    ⟨?_, by simp [hne], .inr ?_⟩, by simp [Text.isAsciiDigit], by simp, .inl (by simp), ?_⟩
  · rw [tail_point (by simp)]
  · intro c hc
    rcases List.mem_append.1 hc with hc | hc
    · exact Number.isAsciiDigit_of_mem_digitsOf hc
    · exact isAsciiDigit_of_mem_replicate hc
  · have hhead := Number.head?_digitsOf_ne_zero hn
    cases hcs : digitsOf n with
    | nil => exact absurd hcs hne
    | cons c cs => simpa [hcs] using hhead
  · rw [hvalue, show place - (digitsOf n).length =
      ((place.toNat - (digitsOf n).length : Nat) : Int) by omega, zpow_natCast]
    norm_num
    ring

/-- The point stands among the digits. -/
theorem spells_among {n : Nat} (hn : 0 < n) {place : Int} (hplace : 0 < place)
    (hlength : place.toNat < (digitsOf n).length) :
    Spells ((digitsOf n).take place.toNat ++ '.' :: (digitsOf n).drop place.toNat) n
      (place - (digitsOf n).length) := by
  have hdrop : (digitsOf n).drop place.toNat ≠ [] := by
    rw [ne_eq, List.drop_eq_nil_iff]
    omega
  refine ⟨(digitsOf n).take place.toNat, (digitsOf n).drop place.toNat, none, ?_,
    isWhole_of_prefix hn ?_ (List.take_prefix _ _), ?_, by simp, .inl hdrop, ?_⟩
  · rw [tail_point hdrop]
  · rw [ne_eq, List.take_eq_nil_iff]
    exact not_or.2 ⟨by omega, Number.digitsOf_ne_nil n⟩
  · exact fun c hc => Number.isAsciiDigit_of_mem_digitsOf (List.mem_of_mem_drop hc)
  · rw [List.take_append_drop, Number.ofDigits_digitsOf]
    congr 2
    simp only [Option.elim_none, List.length_drop]
    omega

theorem spells_positional {n : Nat} (hn : 0 < n) (place : Int) :
    Spells (Number.Shortest.positional (digitsOf n) place) n (place - (digitsOf n).length) := by
  unfold Number.Shortest.positional
  split
  next hplace => exact spells_behind n hplace
  split
  next hplace hlength => exact spells_before hn (by omega) hlength
  next hplace hlength => exact spells_among hn (by omega) (by omega)

theorem ofDigits_padded (width n : Nat) : ofDigits (Number.Shortest.padded width n) = n := by
  simp only [Number.Shortest.padded, Number.ofDigits_append, Number.ofDigits_replicate_zero,
    Number.ofDigits_digitsOf]
  omega

theorem spells_scientific (layout : Number.Shortest.Layout) {n : Nat} (hn : 0 < n)
    (exponent : Int) :
    Spells (Number.Shortest.scientific layout (digitsOf n) exponent) n
      (exponent + 1 - (digitsOf n).length) := by
  have hne := Number.digitsOf_ne_nil n
  obtain ⟨c, cs, hcs⟩ := List.exists_cons_of_ne_nil hne
  have hdigits (d : Char) (hd : d ∈ c :: cs) : Text.isAsciiDigit d = true :=
    Number.isAsciiDigit_of_mem_digitsOf (hcs ▸ hd)
  have hpadded : ∀ d ∈ Number.Shortest.padded layout.exponentDigits exponent.natAbs,
      Text.isAsciiDigit d = true := by
    intro d hd
    rcases List.mem_append.1 hd with hd | hd
    · rw [List.eq_of_mem_replicate hd]
      decide
    · exact Number.isAsciiDigit_of_mem_digitsOf hd
  refine ⟨[c], cs, some (decide (exponent < 0),
    Number.Shortest.padded layout.exponentDigits exponent.natAbs), ?_, ?_, ?_, ?_, .inr nofun, ?_⟩
  · rw [hcs]
    cases cs <;> simp [Number.Shortest.scientific, tail]
  · exact isWhole_of_prefix hn (by simp) ⟨cs, hcs.symm⟩
  · exact fun d hd => hdigits d (by simp [hd])
  · rintro e ⟨⟩
    exact ⟨by simp [Number.Shortest.padded, Number.digitsOf_ne_nil], hpadded⟩
  · rw [List.singleton_append, ← hcs, Number.ofDigits_digitsOf, hcs]
    congr 2
    simp only [Option.elim_some, ofDigits_padded, Number.withSign_natAbs, List.length_cons]
    push_cast
    ring

/-! ## Numbers -/

theorem stripZeros_eq (limit n : Nat) (g : Int) :
    ((Number.Shortest.stripZeros limit n g).1 : ℚ) * 10 ^ (Number.Shortest.stripZeros limit n g).2 =
      n * 10 ^ g := by
  induction limit generalizing n g with
  | zero => rfl
  | succ limit ih =>
    unfold Number.Shortest.stripZeros
    split
    next h =>
      have hn : n = n / 10 * 10 := by omega
      rw [ih, zpow_add_one₀ (by norm_num)]
      conv_rhs => rw [hn]
      push_cast
      ring
    next => rfl

/-- What spells a decimal near a number is read as that number. -/
theorem Spells.isDecimal {text : List Char} {n : Nat} {g : Int} (h : Spells text n g)
    {M : Nat} {E : Int} (hfull : Binary64.IsFull M E) (hnear : Binary64.Near M E (n * 10 ^ g))
    (negative : Bool) : IsDecimal (signed negative text) (Binary64.ofScaled negative M E) := by
  obtain ⟨whole, fraction, exponent, rfl, hwhole, hfraction, hexponent, hparts, heq⟩ := h
  refine ⟨negative, whole, fraction, exponent, ?_, hwhole, hfraction, hexponent, hparts, ?_⟩
  · simp [signed]
  · rw [← heq] at hnear
    exact Binary64.ofDecimal_of_near hfull hnear negative

/-- The text of a number is read as the number. -/
theorem isDecimal_writeFloat {negative : Bool} {m : Nat} {e : Int}
    (h : (Binary64.finite negative m e).isCanonical = true) :
    IsDecimal (writeFloat (.finite negative m e)) (.finite negative m e) := by
  simp only [Binary64.isCanonical, Bool.or_eq_true, Bool.and_eq_true, beq_iff_eq,
    decide_eq_true_eq] at h
  by_cases hm : m = 0
  · obtain ⟨rfl, rfl⟩ : m = 0 ∧ e = 0 := h.resolve_right fun h => by omega
    refine ⟨negative, ['0'], ['0'], none, ?_, isWhole_digitsOf 0, by simp [Text.isAsciiDigit],
      by simp, .inl (by simp), rfl⟩
    simp [writeFloat, Number.Shortest.write, signed, tail]
  · obtain ⟨⟨⟨hodd, hlt⟩, hleast⟩, hmost⟩ := h.resolve_left fun h => hm h.1
    have hfull := Number.Shortest.isFull_widen (Nat.pos_of_ne_zero hm) hlt hleast hmost
    have hnear := Number.Shortest.near_digits rfl hfull
    have hscaled := Number.Shortest.ofScaled_widen negative hodd e
    rw [← stripZeros_eq 17] at hnear
    simp only [writeFloat, Number.Shortest.write, hm, ↓reduceIte]
    generalize Number.Shortest.stripZeros 17 (Number.Shortest.digits m e).1
      (Number.Shortest.digits m e).2 = stripped at hnear ⊢
    obtain ⟨n, g⟩ := stripped
    have hn : 0 < n := by
      rcases Nat.eq_zero_or_pos n with rfl | hn
      · simpa using hnear.pos hfull.pos
      · exact hn
    have hspells : Spells (if Value.floatLayout.leastPositional ≤ g + (digitsOf n).length - 1 &&
        g + (digitsOf n).length - 1 < Value.floatLayout.scientificFrom then
          Number.Shortest.positional (digitsOf n) (g + (digitsOf n).length - 1 + 1)
        else Number.Shortest.scientific Value.floatLayout (digitsOf n)
          (g + (digitsOf n).length - 1)) n g := by
      split
      · simpa using spells_positional hn (g + (digitsOf n).length - 1 + 1)
      · simpa using spells_scientific Value.floatLayout hn (g + (digitsOf n).length - 1)
    have hdecimal := hspells.isDecimal hfull hnear negative
    rw [hscaled] at hdecimal
    exact hdecimal

end SellRules.Json
