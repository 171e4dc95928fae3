import Mathlib.Algebra.Order.Field.Power
import Mathlib.Algebra.Order.Field.Rat
import Mathlib.Tactic.FieldSimp
import Mathlib.Tactic.Linarith
import SellRules.Number.Shortest
import SellRules.Proofs.Number.Numeral

/-!
# The reals that round to a number

Reading a decimal rounds it to the nearest number of double precision. The interval of a number
(`Shortest.interval`) holds reals that round to it and no others are needed to write it: whatever
fraction or decimal lies in the interval is read as that number (`Binary64.ofRatio_of_near`,
`Binary64.ofDecimal_of_near`). Numbers are compared as rationals.
-/

set_option autoImplicit false

namespace SellRules.Number

namespace Binary64

/-- Whether a number of double precision is in its only form. -/
def isCanonical : Binary64 → Bool
  | .finite _ m e =>
    m == 0 && e == 0 ||
      m % 2 == 1 && decide (m < 2 * leastFull) && decide (minExponent ≤ e) &&
        decide (e + m.log2 ≤ 1023)
  | _ => true

/-! ## Significands and exponents -/

theorem stripTwos_mul_pow {m s limit : Nat} (hm : m % 2 = 1) (hs : s ≤ limit) (e : Int) :
    stripTwos limit (m * 2 ^ s) e = (m, e + s) := by
  induction limit generalizing s e with
  | zero =>
    obtain rfl : s = 0 := by omega
    simp [stripTwos]
  | succ limit ih =>
    cases s with
    | zero => simp [stripTwos, hm]
    | succ s =>
      have heven : m * 2 ^ (s + 1) % 2 = 0 := by
        rw [pow_succ, ← mul_assoc]
        exact Nat.mul_mod_left _ 2
      have hhalf : m * 2 ^ (s + 1) / 2 = m * 2 ^ s := by
        rw [pow_succ, ← mul_assoc]
        exact Nat.mul_div_cancel _ (by decide)
      rw [stripTwos, if_pos heven, hhalf, ih (by omega)]
      push_cast
      congr 1
      ring

/-- A significand with factors of two is brought into its only form. -/
theorem ofScaled_mul_pow (negative : Bool) {m s : Nat} (hm : m % 2 = 1) (hs : s ≤ 53) (e : Int) :
    ofScaled negative (m * 2 ^ s) (e - s) = .finite negative m e := by
  have hne : m * 2 ^ s ≠ 0 := by
    have : 0 < m := by omega
    positivity
  rw [ofScaled, if_neg hne, stripTwos_mul_pow hm hs, sub_add_cancel]

/-- A significand of 53 digits, or of fewer beside the least exponent. -/
structure IsFull (M : Nat) (E : Int) : Prop where
  pos : 0 < M
  lt : M < 2 * leastFull
  least : minExponent ≤ E
  most : E ≤ maxExponent
  full : leastFull ≤ M ∨ E = minExponent

/-! ## Rounding a fraction -/

theorem roundHalfEven_eq {n d M : Nat} (hd : 0 < d) (hlow : 2 * (M * d) ≤ 2 * n + d)
    (hhigh : 2 * n ≤ 2 * (M * d) + d)
    (htie : 2 * (M * d) = 2 * n + d ∨ 2 * n = 2 * (M * d) + d → M % 2 = 0) :
    roundHalfEven n d = M := by
  have hn : n / d * d + n % d = n := Nat.div_add_mod' n d
  have hr := Nat.mod_lt n hd
  simp only [roundHalfEven]
  generalize n / d = q at hn ⊢
  generalize n % d = r at hn hr ⊢
  -- Only the two whole numbers next to the fraction are near enough.
  have hle : M ≤ q + 1 := by
    by_contra h
    have := Nat.mul_le_mul_right d (show q + 2 ≤ M by omega)
    rw [Nat.add_mul] at this
    omega
  have hge : q ≤ M := by
    by_contra h
    have := Nat.mul_le_mul_right d (show M + 1 ≤ q by omega)
    rw [Nat.add_mul] at this
    omega
  rcases (by omega : M = q ∨ M = q + 1) with rfl | rfl
  · rw [if_neg]
    simp only [Bool.or_eq_true, decide_eq_true_eq, Bool.and_eq_true, beq_iff_eq, not_or, not_and]
    refine ⟨by omega, fun htwo => ?_⟩
    have := htie (.inr (by omega))
    omega
  · rw [Nat.add_mul] at hlow hhigh htie
    rw [if_pos]
    simp only [Bool.or_eq_true, decide_eq_true_eq, Bool.and_eq_true, beq_iff_eq]
    by_cases hlt : d < 2 * r
    · exact .inl hlt
    · have := htie (.inl (by omega))
      exact .inr ⟨by omega, by omega⟩

theorem zpow_eq_pow_toNat (b : ℚ) {e : Int} (h : 0 ≤ e) : b ^ e = b ^ e.toNat := by
  rw [← zpow_natCast, Int.toNat_of_nonneg h]

/-- A fraction divided by a power of a base, in whole numbers. -/
theorem scale_eq {b : Nat} (hb : 0 < b) (n : Nat) {d : Nat} (hd : 0 < d) (e : Int) :
    let scaled := if 0 ≤ e then (n, d * Nat.pow b e.toNat) else (n * Nat.pow b (-e).toNat, d)
    0 < scaled.2 ∧ (scaled.1 : ℚ) / scaled.2 = (n : ℚ) / d / b ^ e := by
  dsimp only
  split
  next he =>
    refine ⟨Nat.mul_pos hd (Nat.pow_pos hb), ?_⟩
    rw [zpow_eq_pow_toNat b he, div_div, Nat.pow_eq]
    push_cast
    rfl
  next he =>
    refine ⟨hd, ?_⟩
    have hinv : (b : ℚ) ^ e = ((b : ℚ) ^ (-e).toNat)⁻¹ := by
      rw [← zpow_eq_pow_toNat (b : ℚ) (show 0 ≤ -e by omega), zpow_neg, inv_inv]
    rw [hinv, div_inv_eq_mul, Nat.pow_eq]
    push_cast
    ring

theorem scaleRatio_eq (n : Nat) {d : Nat} (hd : 0 < d) (e : Int) :
    0 < (scaleRatio n d e).2 ∧
      ((scaleRatio n d e).1 : ℚ) / (scaleRatio n d e).2 = (n : ℚ) / d / 2 ^ e :=
  scale_eq (by decide) n hd e

theorem two_zpow_log2_le {n : Nat} (hn : 0 < n) : (2 : ℚ) ^ (n.log2 : Int) ≤ n := by
  rw [zpow_natCast]
  exact_mod_cast Nat.log2_self_le hn.ne'

theorem lt_two_zpow_log2 (n : Nat) : (n : ℚ) < 2 ^ ((n.log2 : Int) + 1) := by
  have := @Nat.lt_log2_self n
  rw [← Nat.cast_succ, zpow_natCast]
  exact_mod_cast this

/-- The binary places of its two parts settle the place of a fraction up to one. -/
theorem two_zpow_lt_div {n d : Nat} (hn : 0 < n) (hd : 0 < d) :
    (2 : ℚ) ^ ((n.log2 : Int) - d.log2 - 1) < n / d := by
  have hd' : (0 : ℚ) < d := by exact_mod_cast hd
  rw [lt_div_iff₀ hd']
  calc (2 : ℚ) ^ ((n.log2 : Int) - d.log2 - 1) * d
      < 2 ^ ((n.log2 : Int) - d.log2 - 1) * 2 ^ ((d.log2 : Int) + 1) :=
        mul_lt_mul_of_pos_left (lt_two_zpow_log2 d) (by positivity)
    _ = 2 ^ (n.log2 : Int) := by rw [← zpow_add₀ two_ne_zero]; congr 1; ring
    _ ≤ n := two_zpow_log2_le hn

theorem div_lt_two_zpow (n : Nat) {d : Nat} (hd : 0 < d) :
    (n : ℚ) / d < 2 ^ ((n.log2 : Int) - d.log2 + 1) := by
  have hd' : (0 : ℚ) < d := by exact_mod_cast hd
  rw [div_lt_iff₀ hd']
  calc (n : ℚ) < 2 ^ ((n.log2 : Int) + 1) := lt_two_zpow_log2 n
    _ = 2 ^ ((n.log2 : Int) - d.log2 + 1) * 2 ^ (d.log2 : Int) := by
        rw [← zpow_add₀ two_ne_zero]; congr 1; ring
    _ ≤ 2 ^ ((n.log2 : Int) - d.log2 + 1) * d :=
        mul_le_mul_of_nonneg_left (two_zpow_log2_le hd) (by positivity)

/-- The exponent of a fraction gives it 53 digits, if it is not too small for that. -/
theorem exists_ratioExponent {n d : Nat} (hn : 0 < n) (hd : 0 < d) :
    ∃ k : Int, ratioExponent n d = max k minExponent ∧
      (2 : ℚ) ^ (52 + k) ≤ n / d ∧ (n : ℚ) / d < 2 ^ (53 + k) := by
  obtain ⟨hb, hscaled⟩ := scaleRatio_eq n hd ((n.log2 : Int) - d.log2 - 52)
  have htest : (scaleRatio n d ((n.log2 : Int) - d.log2 - 52)).1 /
      (scaleRatio n d ((n.log2 : Int) - d.log2 - 52)).2 < leastFull ↔
      (n : ℚ) / d < 2 ^ (52 + ((n.log2 : Int) - d.log2 - 52)) := by
    have hb' : (0 : ℚ) < (scaleRatio n d ((n.log2 : Int) - d.log2 - 52)).2 := by exact_mod_cast hb
    rw [Nat.div_lt_iff_lt_mul hb, zpow_add₀ two_ne_zero, ← div_lt_iff₀ (by positivity), ← hscaled,
      div_lt_iff₀ hb', ← Nat.cast_lt (α := ℚ)]
    norm_num [leastFull]
  simp only [ratioExponent]
  split
  next h =>
    refine ⟨_, rfl, ?_, ?_⟩
    · refine le_of_eq_of_le ?_ (two_zpow_lt_div hn hd).le
      congr 1
      ring
    · refine lt_of_lt_of_eq (htest.1 h) ?_
      congr 1
      ring
  next h =>
    refine ⟨_, rfl, not_lt.1 fun hlt => h (htest.2 hlt), ?_⟩
    refine lt_of_lt_of_eq (div_lt_two_zpow n hd) ?_
    congr 1
    ring

/-! ## Rationals near a number -/

/-- A rational that rounds to `M * 2 ^ E`: it lies within half a unit of the last place, below a
power of two within a quarter, and an odd significand does not get the ends. -/
structure Near (M : Nat) (E : Int) (q : ℚ) : Prop where
  low : ((M : ℚ) - if M = leastFull ∧ minExponent < E then 1 / 4 else 1 / 2) * 2 ^ E ≤ q
  high : q ≤ (M + 1 / 2) * 2 ^ E
  odd : M % 2 = 1 → ((M : ℚ) - 1 / 2) * 2 ^ E < q ∧ q < (M + 1 / 2) * 2 ^ E

theorem Near.low_half {M : Nat} {E : Int} {q : ℚ} (h : Near M E q) :
    ((M : ℚ) - 1 / 2) * 2 ^ E ≤ q := by
  refine le_trans (mul_le_mul_of_nonneg_right ?_ (by positivity)) h.low
  split <;> linarith

theorem Near.pos {M : Nat} {E : Int} {q : ℚ} (h : Near M E q) (hM : 0 < M) : 0 < q := by
  have hM' : (1 : ℚ) ≤ M := by exact_mod_cast hM
  refine lt_of_lt_of_le (mul_pos ?_ (by positivity)) h.low_half
  linarith

/-- A rational near a number is below the next power of two. -/
theorem Near.lt {M : Nat} {E : Int} {q : ℚ} (h : Near M E q) (hM : M < 2 * leastFull) :
    q < 2 ^ (53 + E) := by
  have hM' : (M : ℚ) + 1 ≤ 2 ^ 53 := by
    have htwo : 2 * leastFull = 2 ^ 53 := rfl
    exact_mod_cast htwo ▸ hM
  calc q ≤ (M + 1 / 2) * 2 ^ E := h.high
    _ < 2 ^ (53 : Int) * 2 ^ E := mul_lt_mul_of_pos_right (by norm_num; linarith) (by positivity)
    _ = 2 ^ (53 + E) := (zpow_add₀ two_ne_zero _ _).symm

/-- Rounding a fraction in units of a power of two. -/
theorem roundHalfEven_scaleRatio {n d M : Nat} (hd : 0 < d) {e : Int}
    (hlow : ((M : ℚ) - 1 / 2) * 2 ^ e ≤ n / d) (hhigh : (n : ℚ) / d ≤ (M + 1 / 2) * 2 ^ e)
    (hodd : M % 2 = 1 →
      ((M : ℚ) - 1 / 2) * 2 ^ e < n / d ∧ (n : ℚ) / d < (M + 1 / 2) * 2 ^ e) :
    roundHalfEven (scaleRatio n d e).1 (scaleRatio n d e).2 = M := by
  obtain ⟨hb, hscaled⟩ := scaleRatio_eq n hd e
  generalize (scaleRatio n d e).1 = a at hscaled ⊢
  generalize (scaleRatio n d e).2 = b at hb hscaled ⊢
  have hb' : (0 : ℚ) < b := by exact_mod_cast hb
  have hpow : (0 : ℚ) < 2 ^ e := by positivity
  have hq : (n : ℚ) / d = a / b * 2 ^ e := by rw [hscaled, div_mul_cancel₀ _ hpow.ne']
  rw [hq] at hlow hhigh hodd
  rw [mul_le_mul_iff_of_pos_right hpow, le_div_iff₀ hb'] at hlow
  rw [mul_le_mul_iff_of_pos_right hpow, div_le_iff₀ hb'] at hhigh
  rw [mul_lt_mul_iff_of_pos_right hpow, mul_lt_mul_iff_of_pos_right hpow, lt_div_iff₀ hb',
    div_lt_iff₀ hb'] at hodd
  refine roundHalfEven_eq hb ?_ ?_ fun htie => ?_
  · have : (2 * (M * b) : ℚ) ≤ 2 * a + b := by linarith
    exact_mod_cast this
  · have : (2 * a : ℚ) ≤ 2 * (M * b) + b := by linarith
    exact_mod_cast this
  · by_contra h
    obtain ⟨h1, h2⟩ := hodd (by omega)
    rcases htie with htie | htie
    · have : (2 * (M * b) : ℚ) = 2 * a + b := by exact_mod_cast htie
      linarith
    · have : (2 * a : ℚ) = 2 * (M * b) + b := by exact_mod_cast htie
      linarith

/-! ## Just below a power of two -/

/-- Above the least exponent only the least full significand has numbers near it that are below its
power of two. -/
theorem Near.eq_leastFull {M : Nat} {E : Int} {q : ℚ} (h : Near M E q) (hfull : IsFull M E)
    (hmin : minExponent < E) (hlt : q < 2 ^ (52 + E)) : M = leastFull := by
  refine Nat.le_antisymm ?_ (hfull.full.resolve_right (by omega))
  have hM := lt_of_mul_lt_mul_right
    (h.low_half.trans_lt (lt_of_lt_of_eq hlt (zpow_add₀ two_ne_zero 52 E))) (by positivity)
  have hcast : ((leastFull + 1 : Nat) : ℚ) = 2 ^ (52 : Int) + 1 := by norm_num [leastFull]
  have hlt : (M : ℚ) < (leastFull + 1 : Nat) := by linarith
  exact Nat.lt_succ_iff.1 (Nat.cast_lt.1 hlt)

/-- Such a number is near the same power of two in units of half the size. -/
theorem Near.in_halves {E : Int} {q : ℚ} (h : Near leastFull E q) (hmin : minExponent < E)
    (hlt : q < 2 ^ (52 + E)) :
    (((2 * leastFull : Nat) : ℚ) - 1 / 2) * 2 ^ (E - 1) ≤ q ∧
      q < ((2 * leastFull : Nat) : ℚ) * 2 ^ (E - 1) := by
  have hE : (2 : ℚ) ^ E = 2 * 2 ^ (E - 1) := by
    rw [← zpow_one_add₀ two_ne_zero]
    congr 1
    ring
  constructor
  · refine le_trans (le_of_eq ?_) h.low
    rw [if_pos ⟨rfl, hmin⟩, hE]
    push_cast
    ring
  · refine lt_of_lt_of_eq hlt ?_
    rw [zpow_add₀ two_ne_zero, hE]
    norm_num [leastFull]
    ring

theorem ofScaled_halves (negative : Bool) (E : Int) :
    ofScaled negative (2 * leastFull) (E - 1) = ofScaled negative leastFull E := by
  have htwo := ofScaled_mul_pow negative (m := 1) (s := 53) rfl (by decide) (E + 52)
  have hone := ofScaled_mul_pow negative (m := 1) (s := 52) rfl (by decide) (E + 52)
  rw [show E + 52 - (53 : Nat) = E - 1 by push_cast; ring] at htwo
  rw [show E + 52 - (52 : Nat) = E by push_cast; ring] at hone
  exact htwo.trans hone.symm

/-! ## Fractions near a number -/

section

variable {n d : Nat} {k : Int} (hn : n ≠ 0) (hd : 0 < d)
  (hexponent : ratioExponent n d = max k minExponent) (hk : (2 : ℚ) ^ (52 + k) ≤ n / d)
  (hk' : (n : ℚ) / d < 2 ^ (53 + k))
include hn hd hexponent hk hk'

/-- Just below a power of two the fraction has one binary place less. -/
theorem ofRatio_of_near_below {E : Int} (hmost : E ≤ maxExponent) (hmin : minExponent < E)
    (h : Near leastFull E ((n : ℚ) / d)) (hlt : (n : ℚ) / d < 2 ^ (52 + E)) (negative : Bool) :
    ofRatio negative n d = ofScaled negative leastFull E := by
  obtain ⟨hlow, hhigh⟩ := h.in_halves hmin hlt
  have hpow : (0 : ℚ) < 2 ^ (E - 1) := by positivity
  have habove : (2 : ℚ) ^ (52 + (E - 1)) < n / d := by
    refine lt_of_lt_of_le ?_ hlow
    rw [zpow_add₀ two_ne_zero]
    exact mul_lt_mul_of_pos_right (by norm_num [leastFull]) hpow
  have hplace : max k minExponent = E - 1 := by
    have hge := (zpow_lt_zpow_iff_right₀ (one_lt_two (α := ℚ))).1 (habove.trans hk')
    have hle := (zpow_lt_zpow_iff_right₀ (one_lt_two (α := ℚ))).1 (hk.trans_lt hlt)
    omega
  have hhalf : (n : ℚ) / d < ((2 * leastFull : Nat) + 1 / 2) * 2 ^ (E - 1) := by
    refine hhigh.trans (mul_lt_mul_of_pos_right ?_ hpow)
    linarith
  have hround := roundHalfEven_scaleRatio hd hlow hhalf.le (by norm_num [leastFull])
  have hfinite : ¬ (maxExponent < E - 1 ||
      (E - 1 == maxExponent && 2 * leastFull == 2 * leastFull)) = true := by
    simp
    omega
  simp only [ofRatio, hexponent, hplace, hround, hn, hfinite, Bool.false_eq_true, ↓reduceIte,
    ofScaled_halves]

/-- Elsewhere the fraction has as many binary places as the number. -/
theorem ofRatio_of_near_at {M : Nat} {E : Int} (hfull : IsFull M E)
    (h : Near M E ((n : ℚ) / d)) (hge : minExponent < E → 2 ^ (52 + E) ≤ (n : ℚ) / d)
    (negative : Bool) : ofRatio negative n d = ofScaled negative M E := by
  have hleast := hfull.least
  have hmost := hfull.most
  have hlt := hfull.lt
  have hle := (zpow_lt_zpow_iff_right₀ (one_lt_two (α := ℚ))).1 (hk.trans_lt (h.lt hlt))
  have hplace : max k minExponent = E := by
    rcases hleast.eq_or_lt with heq | hmin
    · omega
    · have := (zpow_lt_zpow_iff_right₀ (one_lt_two (α := ℚ))).1 ((hge hmin).trans_lt hk')
      omega
  have hround := roundHalfEven_scaleRatio hd h.low_half h.high h.odd
  have hfinite : ¬ (maxExponent < E || (E == maxExponent && M == 2 * leastFull)) = true := by
    simp
    omega
  simp only [ofRatio, hexponent, hplace, hround, hn, hfinite, Bool.false_eq_true, ↓reduceIte]

end

/-- A fraction near a number is read as that number. -/
theorem ofRatio_of_near {M : Nat} {E : Int} (hfull : IsFull M E) {n d : Nat} (hd : 0 < d)
    (h : Near M E ((n : ℚ) / d)) (negative : Bool) :
    ofRatio negative n d = ofScaled negative M E := by
  have hpos := h.pos hfull.pos
  have hn : 0 < n := by
    rcases Nat.eq_zero_or_pos n with rfl | hn
    · simp at hpos
    · exact hn
  obtain ⟨k, hexponent, hk, hk'⟩ := exists_ratioExponent hn hd
  by_cases hcase : minExponent < E ∧ (n : ℚ) / d < 2 ^ (52 + E)
  · obtain ⟨hmin, hlt⟩ := hcase
    obtain rfl := h.eq_leastFull hfull hmin hlt
    exact ofRatio_of_near_below hn.ne' hd hexponent hk hk' hfull.most hmin h hlt negative
  · refine ofRatio_of_near_at hn.ne' hd hexponent hk hk' hfull h (fun hmin => ?_) negative
    exact not_lt.1 fun hlt => hcase ⟨hmin, hlt⟩

/-! ## Decimals near a number -/

/-- The place of the first digit of a decimal. -/
theorem decimal_bounds {n : Nat} (hn : 0 < n) (e : Int) :
    (10 : ℚ) ^ ((digitsOf n).length + e - 1) ≤ n * 10 ^ e ∧
      (n : ℚ) * 10 ^ e < 10 ^ ((digitsOf n).length + e) := by
  have hlength := List.length_pos_iff.2 (digitsOf_ne_nil n)
  have hlt : n < 10 ^ (digitsOf n).length := (length_digitsOf_le_iff hlength).1 (Nat.le_refl _)
  have hle : 10 ^ ((digitsOf n).length - 1) ≤ n := by
    by_contra h
    rcases Nat.eq_zero_or_pos ((digitsOf n).length - 1) with hzero | hpos
    · rw [hzero] at h
      omega
    · have := (length_digitsOf_le_iff hpos).2 (Nat.lt_of_not_le h)
      omega
  constructor
  · calc (10 : ℚ) ^ ((digitsOf n).length + e - 1)
        = ((10 ^ ((digitsOf n).length - 1) : Nat) : ℚ) * 10 ^ e := by
          push_cast
          rw [← zpow_natCast, ← zpow_add₀ (by norm_num)]
          congr 1
          omega
      _ ≤ n * 10 ^ e := mul_le_mul_of_nonneg_right (by exact_mod_cast hle) (by positivity)
  · calc (n : ℚ) * 10 ^ e < ((10 ^ (digitsOf n).length : Nat) : ℚ) * 10 ^ e :=
          mul_lt_mul_of_pos_right (by exact_mod_cast hlt) (by positivity)
      _ = 10 ^ ((digitsOf n).length + e) := by
          push_cast
          rw [← zpow_natCast, ← zpow_add₀ (by norm_num)]

/-- All numbers lie between these powers of ten. -/
theorem Near.bounds {M : Nat} {E : Int} (hfull : IsFull M E) {q : ℚ} (h : Near M E q) :
    (10 : ℚ) ^ (-331 : Int) < q ∧ q < 10 ^ (310 : Int) := by
  have hleast := hfull.least
  have hmost := hfull.most
  simp only [minExponent, maxExponent] at hleast hmost
  have hM : (1 : ℚ) ≤ M := by exact_mod_cast hfull.pos
  constructor
  · have hten : (2 : ℚ) ^ 1075 < 10 ^ 331 := by
      exact_mod_cast (show 2 ^ 1075 < 10 ^ 331 by decide +kernel)
    calc (10 : ℚ) ^ (-331 : Int) = (10 ^ 331)⁻¹ := by rw [zpow_neg]; rfl
      _ < (2 ^ 1075)⁻¹ := (inv_lt_inv₀ (by positivity) (by positivity)).2 hten
      _ = 2 ^ (-1075 : Int) := by rw [zpow_neg]; rfl
      _ = 1 / 2 * 2 ^ (-1074 : Int) := by
          rw [show (-1075 : Int) = -1 + -1074 from rfl, zpow_add₀ two_ne_zero, zpow_neg_one,
            one_div]
      _ ≤ (M - 1 / 2) * 2 ^ E := by
          refine mul_le_mul (by linarith) ?_ (by positivity) (by linarith)
          exact zpow_le_zpow_right₀ (by norm_num) hleast
      _ ≤ q := h.low_half
  · have hten : (2 : ℚ) ^ 1024 < 10 ^ 310 := by
      exact_mod_cast (show 2 ^ 1024 < 10 ^ 310 by decide +kernel)
    calc q < 2 ^ (53 + E) := h.lt hfull.lt
      _ ≤ 2 ^ (1024 : Int) := zpow_le_zpow_right₀ (by norm_num) (by omega)
      _ < 10 ^ (310 : Int) := hten

/-- A decimal near a number is read as that number. -/
theorem ofDecimal_of_near {M : Nat} {E : Int} (hfull : IsFull M E) {n : Nat} {e : Int}
    (h : Near M E (n * 10 ^ e)) (negative : Bool) :
    ofDecimal negative n e = ofScaled negative M E := by
  have hpos := h.pos hfull.pos
  have hn : 0 < n := by
    rcases Nat.eq_zero_or_pos n with rfl | hn
    · simp at hpos
    · exact hn
  obtain ⟨hplace, hplace'⟩ := decimal_bounds hn e
  obtain ⟨hlow, hhigh⟩ := h.bounds hfull
  have hlow' := (zpow_lt_zpow_iff_right₀ (by norm_num : (1 : ℚ) < 10)).1 (hlow.trans hplace')
  have hhigh' := (zpow_lt_zpow_iff_right₀ (by norm_num : (1 : ℚ) < 10)).1 (hplace.trans_lt hhigh)
  have hsmall : ¬ (n = 0 || (digitsOf n).length + e < -330) = true := by
    simp
    omega
  have hlarge : ¬ 310 < (digitsOf n).length + e := by omega
  simp only [ofDecimal, hsmall, hlarge, Bool.false_eq_true, ↓reduceIte]
  split
  next he =>
    refine ofRatio_of_near hfull Nat.one_pos ?_ negative
    rw [zpow_eq_pow_toNat _ he] at h
    simpa using h
  next he =>
    refine ofRatio_of_near hfull (Nat.pow_pos (by decide)) ?_ negative
    rw [← neg_neg e, zpow_neg, zpow_eq_pow_toNat _ (by omega), ← div_eq_mul_inv] at h
    simpa using h

end Binary64

end SellRules.Number
