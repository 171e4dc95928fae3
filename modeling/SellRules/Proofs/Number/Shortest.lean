import SellRules.Proofs.Number.Rounding

/-!
# The shortest decimal lies near its number

The digits that are written of a number are those of a decimal that rounds to it
(`Shortest.near_digits`). Seventeen digits are always enough: the grid of decimals with that many is
finer than the interval of the number.
-/

set_option autoImplicit false

namespace SellRules.Number.Shortest

open Binary64 (IsFull Near leastFull minExponent)

/-! ## The interval of a number -/

/-- A significand in its only form is widened to a full one. -/
theorem isFull_widen {m : Nat} {e : Int} (hm : 0 < m) (hlt : m < 2 * leastFull)
    (hleast : minExponent ≤ e) (hmost : e + m.log2 ≤ 1023) :
    IsFull (widen m e).1 (widen m e).2 := by
  have hlow := Nat.log2_self_le hm.ne'
  have hhigh := @Nat.lt_log2_self m
  have hlog : m.log2 < 53 := (Nat.log2_lt hm.ne').2 hlt
  have hfactor (shift : Nat) : 2 ^ m.log2 * 2 ^ shift ≤ m * 2 ^ shift ∧
      m * 2 ^ shift < 2 ^ (m.log2 + 1) * 2 ^ shift :=
    ⟨Nat.mul_le_mul_right _ hlow, Nat.mul_lt_mul_of_pos_right hhigh (Nat.two_pow_pos _)⟩
  simp only [widen, Nat.pow_eq]
  rcases Nat.le_total (52 - m.log2) (e - minExponent).toNat with hle | hle
  · rw [Nat.min_eq_left hle]
    obtain ⟨hge, hlt'⟩ := hfactor (52 - m.log2)
    rw [← pow_add, show m.log2 + (52 - m.log2) = 52 by omega] at hge
    rw [← pow_add, show m.log2 + 1 + (52 - m.log2) = 53 by omega] at hlt'
    refine ⟨by positivity, hlt', ?_, ?_, .inl hge⟩
    · omega
    · simp only [Binary64.maxExponent]
      omega
  · rw [Nat.min_eq_right hle]
    obtain ⟨-, hlt'⟩ := hfactor (e - minExponent).toNat
    refine ⟨by positivity, ?_, ?_, ?_, .inr ?_⟩
    · refine hlt'.trans_le ?_
      rw [← pow_add]
      exact Nat.pow_le_pow_right (by decide) (show _ ≤ 53 by omega)
    · omega
    · simp only [Binary64.maxExponent, minExponent] at *
      omega
    · omega

theorem ofScaled_widen (negative : Bool) {m : Nat} (hm : m % 2 = 1) (e : Int) :
    Binary64.ofScaled negative (widen m e).1 (widen m e).2 = .finite negative m e := by
  unfold widen
  exact Binary64.ofScaled_mul_pow negative hm (by omega) e

/-- The parts of an interval as rationals. -/
theorem interval_eq (m : Nat) (e : Int) {M : Nat} {E : Int} (h : widen m e = (M, E)) :
    0 < (interval m e).unit ∧
    ((interval m e).value : ℚ) / (interval m e).unit = M * 2 ^ E ∧
    ((interval m e).down : ℚ) / (interval m e).unit =
      (if M = leastFull ∧ minExponent < E then 1 / 4 else 1 / 2) * 2 ^ E ∧
    ((interval m e).up : ℚ) / (interval m e).unit = 1 / 2 * 2 ^ E ∧
    (interval m e).closed = (M % 2 == 0) := by
  obtain ⟨factor, unit, hscale, hunit, hfraction⟩ : ∃ factor unit : Nat,
      (if 0 ≤ E - 2 then (Nat.pow 2 (E - 2).toNat, 1) else (1, Nat.pow 2 (-(E - 2)).toNat)) =
        (factor, unit) ∧ 0 < unit ∧ (factor : ℚ) / unit = 2 ^ (E - 2) := by
    by_cases hscale : 0 ≤ E - 2
    · refine ⟨_, _, if_pos hscale, Nat.one_pos, ?_⟩
      rw [Binary64.zpow_eq_pow_toNat 2 hscale, Nat.pow_eq]
      push_cast
      exact div_one _
    · refine ⟨_, _, if_neg hscale, Nat.two_pow_pos _, ?_⟩
      rw [← neg_neg (E - 2), zpow_neg, Binary64.zpow_eq_pow_toNat 2 (by omega), neg_neg, Nat.pow_eq]
      push_cast
      exact one_div _
  have hE : (2 : ℚ) ^ E = 4 * (factor / unit) := by
    rw [hfraction, show (4 : ℚ) = 2 ^ (2 : Int) by norm_num, ← zpow_add₀ two_ne_zero]
    congr 1
    ring
  simp only [interval, h, hscale]
  refine ⟨hunit, ?_, ?_, ?_, trivial⟩
  · rw [hE]
    push_cast
    ring
  · rw [hE]
    by_cases hnarrow : M = leastFull ∧ minExponent < E
    · simp [hnarrow.1, hnarrow.2]
    · have : ¬ (M == leastFull && decide (minExponent < E)) = true := by simpa using hnarrow
      rw [if_neg this, if_neg hnarrow]
      push_cast
      ring
  · rw [hE]
    push_cast
    ring

/-! ## Points of a grid -/

theorem scaleTen_eq (n : Nat) {d : Nat} (hd : 0 < d) (e : Int) :
    0 < (scaleTen n d e).2 ∧
      ((scaleTen n d e).1 : ℚ) / (scaleTen n d e).2 = (n : ℚ) / d / 10 ^ e :=
  Binary64.scale_eq (by decide) n hd e

theorem scaleTen_snd (n n' d : Nat) (e : Int) : (scaleTen n d e).2 = (scaleTen n' d e).2 := by
  unfold scaleTen
  split <;> rfl

/-- A point that is found is next to the value and no further from it than the interval reaches. -/
theorem nearestOnGrid?_cases {i : Interval} {g : Int} {k : Nat}
    (h : nearestOnGrid? i g = some k) {a b down up : Nat}
    (hvalue : scaleTen i.value i.unit g = (a, b)) (hdown : (scaleTen i.down i.unit g).1 = down)
    (hup : (scaleTen i.up i.unit g).1 = up) :
    k = a / b ∧ (a % b < down ∨ i.closed = true ∧ a % b ≤ down) ∨
      k = a / b + 1 ∧ (b - a % b < up ∨ i.closed = true ∧ b - a % b ≤ up) := by
  simp only [nearestOnGrid?, hvalue, hdown, hup] at h
  cases hclosed : i.closed with
  | true =>
    simp only [hclosed, ↓reduceIte] at h
    split at h
    next hlow =>
      cases h
      simp only [Bool.and_eq_true, decide_eq_true_eq] at hlow
      exact .inl ⟨rfl, .inr ⟨rfl, hlow.1⟩⟩
    next =>
      split at h
      next hhigh =>
        cases h
        exact .inr ⟨rfl, .inr ⟨rfl, hhigh⟩⟩
      next => cases h
  | false =>
    simp only [hclosed, Bool.false_eq_true, ↓reduceIte] at h
    split at h
    next hlow =>
      cases h
      simp only [Bool.and_eq_true, decide_eq_true_eq] at hlow
      exact .inl ⟨rfl, .inl hlow.1⟩
    next =>
      split at h
      next hhigh =>
        cases h
        exact .inr ⟨rfl, .inl hhigh⟩
      next => cases h

/-- The parts of an interval in units of a grid. -/
theorem exists_scaled {i : Interval} (hunit : 0 < i.unit) (g : Int) :
    ∃ a b down up : Nat, 0 < b ∧ scaleTen i.value i.unit g = (a, b) ∧
      (scaleTen i.down i.unit g).1 = down ∧ (scaleTen i.up i.unit g).1 = up ∧
      (i.value : ℚ) / i.unit = a / b * 10 ^ g ∧ (i.down : ℚ) / i.unit = down / b * 10 ^ g ∧
      (i.up : ℚ) / i.unit = up / b * 10 ^ g := by
  obtain ⟨hb, hvalue⟩ := scaleTen_eq i.value hunit g
  obtain ⟨-, hdown⟩ := scaleTen_eq i.down hunit g
  obtain ⟨-, hup⟩ := scaleTen_eq i.up hunit g
  rw [scaleTen_snd i.down i.value] at hdown
  rw [scaleTen_snd i.up i.value] at hup
  have hten : (10 : ℚ) ^ g ≠ 0 := by positivity
  refine ⟨(scaleTen i.value i.unit g).1, (scaleTen i.value i.unit g).2, _, _, hb, rfl, rfl, rfl,
    ?_, ?_, ?_⟩
  · rw [hvalue, div_mul_cancel₀ _ hten]
  · rw [hdown, div_mul_cancel₀ _ hten]
  · rw [hup, div_mul_cancel₀ _ hten]

/-- A point that is found lies in the interval, and not at an end of an open one. -/
theorem nearestOnGrid?_eq_some {i : Interval} (hunit : 0 < i.unit) (hdown : 0 < i.down)
    (hup : 0 < i.up) {g : Int} {k : Nat} (h : nearestOnGrid? i g = some k) :
    (i.value : ℚ) / i.unit - i.down / i.unit ≤ k * 10 ^ g ∧
      k * 10 ^ g ≤ (i.value : ℚ) / i.unit + i.up / i.unit ∧
      (i.closed = false → (i.value : ℚ) / i.unit - i.down / i.unit < k * 10 ^ g ∧
        k * 10 ^ g < (i.value : ℚ) / i.unit + i.up / i.unit) := by
  obtain ⟨a, b, down, up, hb, hvalue, hdown', hup', hvalueEq, hdownEq, hupEq⟩ :=
    exists_scaled hunit g
  have hcases := nearestOnGrid?_cases h hvalue hdown' hup'
  have hb' : (0 : ℚ) < b := by exact_mod_cast hb
  have hunit' : (0 : ℚ) < i.unit := by exact_mod_cast hunit
  have hten : (0 : ℚ) < 10 ^ g := by positivity
  have hpos {part scaled : Nat} (hpart : 0 < part)
      (heq : (part : ℚ) / i.unit = scaled / b * 10 ^ g) : 0 < scaled := by
    rcases Nat.eq_zero_or_pos scaled with rfl | hscaled
    · have : (0 : ℚ) < part / i.unit := div_pos (by exact_mod_cast hpart) hunit'
      rw [heq] at this
      simp at this
    · exact hscaled
  have hdownPos := hpos hdown hdownEq
  have hupPos := hpos hup hupEq
  have hpoint : a ≤ k * b + down ∧ k * b ≤ a + up ∧
      (i.closed = false → a < k * b + down ∧ k * b < a + up) := by
    have hdiv := Nat.div_add_mod' a b
    have hr := Nat.mod_lt a hb
    generalize a / b = q at hcases hdiv
    generalize a % b = r at hcases hdiv hr
    rcases hcases with ⟨rfl, hlow⟩ | ⟨rfl, hhigh⟩
    · have hle : r ≤ down := hlow.elim Nat.le_of_lt And.right
      refine ⟨by omega, by omega, fun hopen => ?_⟩
      have hlt : r < down := hlow.resolve_right fun h => by simp [hopen] at h
      omega
    · rw [Nat.add_mul]
      have hle : b - r ≤ up := hhigh.elim Nat.le_of_lt And.right
      refine ⟨by omega, by omega, fun hopen => ?_⟩
      have hlt : b - r < up := hhigh.resolve_right fun h => by simp [hopen] at h
      omega
  obtain ⟨hlow, hhigh, hopen⟩ := hpoint
  rw [hvalueEq, hdownEq, hupEq, ← sub_mul, ← sub_div, ← add_mul, ← add_div]
  simp only [mul_le_mul_iff_of_pos_right hten, mul_lt_mul_iff_of_pos_right hten, div_le_iff₀ hb',
    le_div_iff₀ hb', div_lt_iff₀ hb', lt_div_iff₀ hb', sub_le_iff_le_add, sub_lt_iff_lt_add]
  refine ⟨by exact_mod_cast hlow, by exact_mod_cast hhigh, fun h => ?_⟩
  obtain ⟨hlow', hhigh'⟩ := hopen h
  exact ⟨by exact_mod_cast hlow', by exact_mod_cast hhigh'⟩

/-- A point that is found lies in the interval of its number. -/
theorem near_of_nearestOnGrid? {m k : Nat} {e g : Int} {M : Nat} {E : Int}
    (hwiden : widen m e = (M, E)) (h : nearestOnGrid? (interval m e) g = some k) :
    Near M E (k * 10 ^ g) := by
  obtain ⟨hunit, hvalue, hdown, hup, hclosed⟩ := interval_eq m e hwiden
  have hE : (0 : ℚ) < 2 ^ E := by positivity
  have hunit' : (0 : ℚ) < (interval m e).unit := by exact_mod_cast hunit
  have hpos {part : Nat} {c : ℚ} (hc : 0 < c) (heq : (part : ℚ) / (interval m e).unit = c * 2 ^ E) :
      0 < part := by
    rcases Nat.eq_zero_or_pos part with rfl | hpart
    · have : (0 : ℚ) < c * 2 ^ E := by positivity
      rw [← heq] at this
      simp at this
    · exact hpart
  obtain ⟨hlow, hhigh, hopen⟩ := nearestOnGrid?_eq_some hunit
    (hpos (by split <;> norm_num) hdown) (hpos (by norm_num) hup) h
  rw [hvalue, hdown, ← sub_mul] at hlow
  rw [hvalue, hup, ← add_mul] at hhigh
  refine ⟨hlow, hhigh, fun hodd => ?_⟩
  have hM : ¬ (M = leastFull ∧ minExponent < E) := by
    rintro ⟨rfl, -⟩
    exact absurd hodd (by decide)
  have := hopen (by rw [hclosed, hodd]; rfl)
  rwa [hvalue, hdown, hup, if_neg hM, ← sub_mul, ← add_mul] at this

/-- A grid that is finer than the interval has a point in it. -/
theorem nearestOnGrid?_ne_none {i : Interval} (hunit : 0 < i.unit) {g : Int}
    (h : (10 : ℚ) ^ g < (i.down : ℚ) / i.unit + (i.up : ℚ) / i.unit) :
    nearestOnGrid? i g ≠ none := by
  obtain ⟨a, b, down, up, hb, hvalue, hdown, hup, -, hdownEq, hupEq⟩ := exists_scaled hunit g
  have hb' : (0 : ℚ) < b := by exact_mod_cast hb
  have hten : (0 : ℚ) < 10 ^ g := by positivity
  have hfine : b < down + up := by
    rw [hdownEq, hupEq, ← add_mul, ← add_div, lt_mul_iff_one_lt_left hten, lt_div_iff₀ hb',
      one_mul] at h
    exact_mod_cast h
  have hr := Nat.mod_lt a hb
  simp only [nearestOnGrid?, hvalue, hdown, hup]
  generalize a % b = r at hr ⊢
  cases i.closed with
  | true =>
    simp only [↓reduceIte]
    split
    · simp
    next hlow =>
      split
      · simp
      next hhigh =>
        simp [hhigh] at hlow
        omega
  | false =>
    simp only [Bool.false_eq_true, ↓reduceIte]
    split
    · simp
    next hlow =>
      split
      · simp
      next hhigh =>
        simp [hhigh] at hlow
        omega

/-! ## The place of the first digit -/

/-- The estimate of a decimal place from a binary one. -/
theorem ten_zpow_le_two_zpow {a b : Nat} (hb : 0 < b) (hlow : 2 ^ b ≤ 10 ^ a)
    (hhigh : 10 ^ a ≤ 2 ^ (b + 1)) {L k : Int} (hL : L ≤ b) (hk : k * b ≤ L * a) :
    (10 : ℚ) ^ k ≤ 2 ^ (L + 1) := by
  have hlow' : (2 : ℚ) ^ b ≤ 10 ^ a := by exact_mod_cast hlow
  have hhigh' : (10 : ℚ) ^ a ≤ 2 ^ (b + 1) := by exact_mod_cast hhigh
  have hpower : ((10 : ℚ) ^ a) ^ L ≤ (2 ^ (L + 1)) ^ b := by
    rcases le_or_gt 0 L with h | h
    · calc ((10 : ℚ) ^ a) ^ L ≤ (2 ^ (b + 1)) ^ L := zpow_le_zpow_left₀ h (by positivity) hhigh'
        _ = 2 ^ (((b : ℤ) + 1) * L) := by rw [← zpow_natCast, ← zpow_mul]; push_cast; rfl
        _ ≤ 2 ^ ((L + 1) * b) := zpow_le_zpow_right₀ (by norm_num) (by linarith)
        _ = (2 ^ (L + 1)) ^ b := by rw [zpow_mul, zpow_natCast]
    · calc ((10 : ℚ) ^ a) ^ L ≤ (2 ^ b) ^ L := by
            rw [← neg_neg L, zpow_neg, zpow_neg (_ ^ b)]
            exact inv_anti₀ (by positivity)
              (zpow_le_zpow_left₀ (by omega) (by positivity) hlow')
        _ = 2 ^ ((b : ℤ) * L) := by rw [← zpow_natCast, ← zpow_mul]
        _ ≤ 2 ^ ((L + 1) * b) := zpow_le_zpow_right₀ (by norm_num) (by linarith)
        _ = (2 ^ (L + 1)) ^ b := by rw [zpow_mul, zpow_natCast]
  refine (pow_le_pow_iff_left₀ (by positivity) (by positivity) hb.ne').1 (le_trans ?_ hpower)
  rw [← zpow_natCast, ← zpow_natCast, ← zpow_mul, ← zpow_mul, mul_comm (a : ℤ)]
  exact zpow_le_zpow_right₀ (by norm_num) hk

/-- The estimate is at most two places too high. -/
theorem ten_zpow_estimate_le {L : Int} (hL : L ≤ 100000) :
    (10 : ℚ) ^ (L * 30103 / 100000 - 2) ≤ 2 ^ (L - 1) := by
  have hten := ten_zpow_le_two_zpow (a := 30103) (b := 100000) (by decide) (by decide +kernel)
    (by decide +kernel) hL (k := L * 30103 / 100000) (by omega)
  calc (10 : ℚ) ^ (L * 30103 / 100000 - 2)
      = 10 ^ (L * 30103 / 100000) / 100 := by rw [zpow_sub₀ (by norm_num)]; norm_num
    _ ≤ 2 ^ (L + 1) / 4 := div_le_div₀ (by positivity) hten (by norm_num) (by norm_num)
    _ = 2 ^ (L - 1) := by
        rw [zpow_add₀ two_ne_zero, zpow_sub₀ two_ne_zero]
        ring

/-- The place of the first digit is not set too high. -/
theorem ten_zpow_decimalPlace_le {n d : Nat} (hn : 0 < n) (hd : 0 < d)
    (hlog : (n.log2 : Int) - d.log2 ≤ 100000) :
    (10 : ℚ) ^ (decimalPlace n d - 1) ≤ n / d := by
  have hestimate := (ten_zpow_estimate_le hlog).trans (Binary64.two_zpow_lt_div hn hd).le
  have hbelow (k : Int) (h : ¬ (scaleTen n d k).1 < (scaleTen n d k).2) : (10 : ℚ) ^ k ≤ n / d := by
    obtain ⟨hb, heq⟩ := scaleTen_eq n hd k
    have hb' : (0 : ℚ) < (scaleTen n d k).2 := by exact_mod_cast hb
    have hten : (0 : ℚ) < 10 ^ k := by positivity
    have hge : (1 : ℚ) ≤ n / d / 10 ^ k := by
      rw [← heq, le_div_iff₀ hb', one_mul]
      exact_mod_cast Nat.le_of_not_lt h
    rwa [le_div_iff₀ hten, one_mul] at hge
  simp only [decimalPlace, List.map_cons, List.map_nil, List.find?_cons]
  generalize ((n.log2 : Int) - d.log2) * 30103 / 100000 = estimate at hestimate ⊢
  -- The place before the one that is taken was not enough, or the one before the estimate is.
  by_cases h₀ : (scaleTen n d (estimate + -1)).1 < (scaleTen n d (estimate + -1)).2
  · simp only [h₀, decide_true, Option.getD_some]
    rwa [show estimate + -1 - 1 = estimate - 2 by ring]
  by_cases h₁ : (scaleTen n d (estimate + 0)).1 < (scaleTen n d (estimate + 0)).2
  · simp only [h₀, h₁, decide_true, decide_false, Option.getD_some]
    rw [show estimate + 0 - 1 = estimate + -1 by ring]
    exact hbelow _ h₀
  by_cases h₂ : (scaleTen n d (estimate + 1)).1 < (scaleTen n d (estimate + 1)).2
  · simp only [h₀, h₁, h₂, decide_true, decide_false, Option.getD_some]
    rw [show estimate + 1 - 1 = estimate + 0 by ring]
    exact hbelow _ h₁
  by_cases h₃ : (scaleTen n d (estimate + 2)).1 < (scaleTen n d (estimate + 2)).2
  · simp only [h₀, h₁, h₂, h₃, decide_true, decide_false, Option.getD_some]
    rw [show estimate + 2 - 1 = estimate + 1 by ring]
    exact hbelow _ h₂
  · simp only [h₀, h₁, h₂, h₃, decide_false, List.find?_nil, Option.getD_none]
    rw [show estimate + 3 - 1 = estimate + 2 by ring]
    exact hbelow _ h₃

/-! ## Digits -/

/-- Seventeen digits make a grid that is finer than the interval of a number. -/
theorem grid_lt {M : Nat} {E place : Int} (hfull : IsFull M E)
    (hplace : (10 : ℚ) ^ (place - 1) ≤ M * 2 ^ E) :
    (10 : ℚ) ^ (place - 17) <
      (if M = leastFull ∧ minExponent < E then 1 / 4 else 1 / 2) * 2 ^ E + 1 / 2 * 2 ^ E := by
  have hE : (0 : ℚ) < 2 ^ E := by positivity
  calc (10 : ℚ) ^ (place - 17) = 10 ^ (place - 1) / 10 ^ 16 := by
        rw [show place - 17 = place - 1 - (16 : Int) by ring, zpow_sub₀ (by norm_num)]
        rfl
    _ ≤ M * 2 ^ E / 10 ^ 16 := div_le_div_of_nonneg_right hplace (by positivity)
    _ = M / 10 ^ 16 * 2 ^ E := by ring
    _ < ((if M = leastFull ∧ minExponent < E then 1 / 4 else 1 / 2) + 1 / 2) * 2 ^ E := by
        refine mul_lt_mul_of_pos_right ?_ hE
        rw [div_lt_iff₀ (by positivity)]
        split
        next h =>
          rw [h.1]
          norm_num [leastFull]
        next =>
          have hlt : (M : ℚ) < (2 * leastFull : Nat) := by exact_mod_cast hfull.lt
          norm_num [leastFull] at hlt ⊢
          linarith
    _ = _ := add_mul _ _ _

/-- The digits of a number stand for a decimal that rounds to it. -/
theorem near_digits {m : Nat} {e : Int} {M : Nat} {E : Int} (hwiden : widen m e = (M, E))
    (hfull : IsFull M E) : Near M E ((digits m e).1 * 10 ^ (digits m e).2) := by
  obtain ⟨hunit, hvalue, hdown, hup, -⟩ := interval_eq m e hwiden
  have hn : 0 < (interval m e).value := by
    rcases Nat.eq_zero_or_pos (interval m e).value with hzero | hpos
    · have hM : (0 : ℚ) < M := by exact_mod_cast hfull.pos
      have : (0 : ℚ) < M * 2 ^ E := by positivity
      rw [← hvalue, hzero] at this
      simp at this
    · exact hpos
  have hlog : ((interval m e).value.log2 : Int) - (interval m e).unit.log2 ≤ 100000 := by
    have hmost := hfull.most
    have hM : (M : ℚ) < 2 ^ (53 : Int) := by exact_mod_cast hfull.lt
    have hlt : (M : ℚ) * 2 ^ E < 2 ^ (53 + E) := by
      rw [zpow_add₀ two_ne_zero]
      exact mul_lt_mul_of_pos_right hM (by positivity)
    have hplace := (Binary64.two_zpow_lt_div hn hunit).trans_eq hvalue |>.trans hlt
    have := (zpow_lt_zpow_iff_right₀ (one_lt_two (α := ℚ))).1 hplace
    simp only [Binary64.maxExponent] at hmost
    omega
  have hplace := ten_zpow_decimalPlace_le hn hunit hlog
  rw [hvalue] at hplace
  have hgrid := grid_lt hfull hplace
  rw [← hdown, ← hup] at hgrid
  have hfine := nearestOnGrid?_ne_none hunit hgrid
  have hsome : (((List.range 17).map fun n : Nat =>
      decimalPlace (interval m e).value (interval m e).unit - (n + 1 : Nat)).findSome? fun g =>
        (nearestOnGrid? (interval m e) g).map (·, g)).isSome := by
    rw [List.findSome?_isSome_iff]
    refine ⟨_, List.mem_map.2 ⟨16, by decide, rfl⟩, ?_⟩
    rw [Option.isSome_map]
    exact Option.isSome_iff_ne_none.2 hfine
  obtain ⟨found, hfound⟩ := Option.isSome_iff_exists.1 hsome
  obtain ⟨g, -, hg⟩ := List.exists_of_findSome?_eq_some hfound
  obtain ⟨k, hk, rfl⟩ := Option.map_eq_some_iff.1 hg
  simp only [digits, hfound, Option.getD_some]
  exact near_of_nearestOnGrid? hwiden hk

end SellRules.Number.Shortest
