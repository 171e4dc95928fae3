import Mathlib.Data.List.Forall2
import SellRules.Proofs.Restriction.Union
import SellRules.Value.Equal

/-!
# Equal values and equal sets

Values that are equal as data cannot be told apart by a shop: they count as holding something alike,
and every set has both or neither (`Value.LooksLike`). Sets that stand for the same numbers and texts
have the same values and find the same tags among markers.
-/

set_option autoImplicit false

namespace SellRules

namespace Scalar

theorem order_eq_iff {a b : Scalar} :
    order a b = .eq ↔ rank a = rank b ∧ units a = units b ∧ wording a = wording b := by
  simp [order, compareLex, compareOn, Ordering.then_eq_eq, Std.LawfulEqCmp.compare_eq_iff_eq]

/-- Only the same text is equal to a text. -/
theorem order_text_eq_iff {s : String} {b : Scalar} : order (.text s) b = .eq ↔ b = .text s := by
  constructor
  · intro h
    obtain ⟨hrank, -, hwording⟩ := order_eq_iff.1 h
    cases b with
    | text t => rw [show s = t from hwording]
    | float x =>
      cases x with
      | infinite negative => cases negative <;> cases hrank
      | _ => cases hrank
    | _ => cases hrank
  · rintro rfl
    exact order_text_eq.2 rfl

theorem eq_toValue_of_ofValue? {v : Value} {a : Scalar} (h : ofValue? v = some a) :
    v = a.toValue := by
  cases v <;> cases h <;> rfl

theorem toValue_inj {a b : Scalar} (h : a.toValue = b.toValue) : a = b := by
  have hof (a : Scalar) : ofValue? a.toValue = some a := by
    cases a <;> rfl
  exact Option.some.inj ((hof a).symm.trans (h ▸ hof b))

theorem units_eq_zero_iff {negative : Bool} {m : Nat} {e : Int} :
    Number.Binary64.units negative m e = 0 ↔ m = 0 := by
  have hpow : Nat.pow 2 (e - Number.Binary64.minExponent).toNat ≠ 0 :=
    Nat.ne_of_gt (Nat.two_pow_pos _)
  rw [Number.Binary64.units, Number.withSign]
  generalize Nat.pow 2 (e - Number.Binary64.minExponent).toNat = k at hpow
  have hproduct : ((m * k : Nat) : Int) = 0 ↔ m = 0 := by
    rw [Int.natCast_eq_zero, Nat.mul_eq_zero, or_iff_left hpow]
  cases negative
  · exact hproduct
  · exact Int.neg_eq_zero.trans hproduct

/-- A scalar counts as holding nothing if it is nothing itself, a zero or the empty text. -/
theorem truthy_eq_false_iff {a : Scalar} :
    a.toValue.truthy = false ↔
      order a .null = .eq ∨ order a (.int 0) = .eq ∨ order a (.text "") = .eq := by
  simp only [order_eq_iff]
  cases a with
  | null => simp [toValue, Value.truthy, rank, units, wording]
  | bool b => cases b <;> simp [toValue, Value.truthy, rank, units, wording, unitsOfInt_inj]
  | int n => simp [toValue, Value.truthy, rank, units, wording, unitsOfInt_inj]
  | float x =>
    have hzero : Number.Binary64.unitsOfInt 0 = 0 := Int.zero_mul _
    cases x with
    | finite negative m e =>
      simp [toValue, Value.truthy, rank, units, wording, hzero, units_eq_zero_iff,
        Number.Binary64.isZero]
    | infinite negative =>
      cases negative <;> simp [toValue, Value.truthy, rank, Number.Binary64.isZero]
    | notANumber => simp [toValue, Value.truthy, rank, Number.Binary64.isZero]
  | text s => simp [toValue, Value.truthy, rank, units, wording]

/-- Equal scalars count as holding something alike. -/
theorem truthy_congr {a b : Scalar} (h : order a b = .eq) :
    a.toValue.truthy = b.toValue.truthy := by
  rw [Bool.eq_iff_iff, ← not_iff_not, Bool.not_eq_true, Bool.not_eq_true, truthy_eq_false_iff,
    truthy_eq_false_iff, Std.TransCmp.congr_left h, Std.TransCmp.congr_left h,
    Std.TransCmp.congr_left h]

end Scalar

namespace ScalarSet

theorem has_toValue (s : ScalarSet) (a : Scalar) : s.has a.toValue = .ok (s.contains a) := by
  cases a <;> rfl

/-- Equal scalars are in the same sets. -/
theorem contains_congr (s : ScalarSet) {a b : Scalar} (h : Scalar.order a b = .eq) :
    s.contains a = s.contains b := by
  have htests : (fun x => Scalar.order a x == .eq) = fun x => Scalar.order b x == .eq := by
    funext x
    rw [Std.TransCmp.congr_left h]
  rw [OrderedList.contains, OrderedList.contains, htests]

theorem forall₂_of_same {s t : ScalarSet} (h : s.same t = true) :
    List.Forall₂ (fun a b => Scalar.order a b = .eq) s.toList t.toList := by
  simp only [same, Bool.and_eq_true, beq_iff_eq, List.all_eq_true] at h
  refine List.forall₂_iff_zip.2 ⟨h.1, fun {a b} hab => ?_⟩
  exact eq_of_beq (h.2 (a, b) hab)

/-- What a function gives for equal scalars alike it gives along equal sets alike. -/
theorem map_congr_of_same {α : Type} {f : Scalar → α}
    (hf : ∀ a b, Scalar.order a b = .eq → f a = f b) {s t : ScalarSet} (h : s.same t = true) :
    s.toList.map f = t.toList.map f := by
  have hlists := forall₂_of_same h
  generalize s.toList = l, t.toList = m at hlists
  induction hlists with
  | nil => rfl
  | cons hab _ ih => rw [List.map_cons, List.map_cons, hf _ _ hab, ih]

/-- Equal sets have the same values. -/
theorem has_of_same {s t : ScalarSet} (h : s.same t = true) (v : Value) : s.has v = t.has v := by
  have hcontains (a : Scalar) : s.contains a = t.contains a := by
    have htests := map_congr_of_same (f := fun b => Scalar.order a b == .eq)
      (fun b c hbc => by rw [Std.TransCmp.congr_right hbc]) h
    have hany := congrArg (·.any id) htests
    simp only [List.any_map] at hany
    exact hany
  cases hv : Scalar.ofValue? v with
  | some a => rw [Scalar.eq_toValue_of_ofValue? hv, has_toValue, has_toValue, hcontains]
  | none => cases v <;> first | rfl | cases hv

end ScalarSet

namespace Value

/-- A value that tests and lookups cannot tell apart from another. -/
structure LooksLike (v w : Value) : Prop where
  truthy : v.truthy = w.truthy
  has : ∀ s : ScalarSet, s.has v = s.has w

theorem LooksLike.refl (v : Value) : v.LooksLike v := ⟨rfl, fun _ => rfl⟩

/-- How two values can be equal. -/
theorem similar_cases {v w : Value} (h : similar v w = true) :
    (∃ as bs, v = .list as ∧ w = .list bs ∧ similarItems as bs = true) ∨
    (∃ as bs, v = .object as ∧ w = .object bs ∧ as.length = bs.length ∧
      similarFields as bs = true) ∨
    (∃ codes, v = .unpaired codes ∧ w = .unpaired codes) ∨
    ∃ a b : Scalar, v = a.toValue ∧ w = b.toValue ∧ Scalar.order a b = .eq := by
  unfold similar at h
  split at h
  · exact .inl ⟨_, _, rfl, rfl, h⟩
  · simp only [Bool.and_eq_true, beq_iff_eq] at h
    exact .inr (.inl ⟨_, _, rfl, rfl, h⟩)
  · exact .inr (.inr (.inl ⟨_, rfl, by rw [eq_of_beq h]⟩))
  · split at h
    next a b ha hb =>
      refine .inr (.inr (.inr ⟨a, b, ?_, ?_, eq_of_beq h⟩))
      · exact Scalar.eq_toValue_of_ofValue? ha
      · exact Scalar.eq_toValue_of_ofValue? hb
    next => cases h

/-- Equal values look alike. -/
theorem looksLike_of_similar {v w : Value} (h : similar v w = true) : v.LooksLike w := by
  rcases similar_cases h with ⟨as, bs, rfl, rfl, hitems⟩ | ⟨as, bs, rfl, rfl, hlength, -⟩ |
    ⟨codes, rfl, rfl⟩ | ⟨a, b, rfl, rfl, hab⟩
  · refine ⟨?_, fun _ => rfl⟩
    cases as <;> cases bs <;> first | rfl | cases hitems
  · refine ⟨?_, fun _ => rfl⟩
    cases as <;> cases bs <;> first | rfl | cases hlength
  · exact .refl _
  · refine ⟨Scalar.truthy_congr hab, fun s => ?_⟩
    rw [ScalarSet.has_toValue, ScalarSet.has_toValue, ScalarSet.contains_congr s hab]

/-- Equal scalars are equal in the order. -/
theorem order_of_similar {a b : Scalar} (h : similar a.toValue b.toValue = true) :
    Scalar.order a b = .eq := by
  rcases similar_cases h with ⟨as, bs, hv, -⟩ | ⟨as, bs, hv, -⟩ | ⟨codes, hv, -⟩ |
    ⟨a', b', hv, hw, hab⟩
  · cases a <;> cases hv
  · cases a <;> cases hv
  · cases a <;> cases hv
  · rwa [Scalar.toValue_inj hv, Scalar.toValue_inj hw]

/-- Only the same text is equal to a text. -/
theorem eq_text_of_similar {s : String} {w : Value} (h : similar (.text s) w = true) :
    w = .text s := by
  rcases similar_cases h with ⟨as, bs, hv, -⟩ | ⟨as, bs, hv, -⟩ | ⟨codes, hv, -⟩ |
    ⟨a, b, hv, rfl, hab⟩
  · cases hv
  · cases hv
  · cases hv
  · cases a <;> cases hv
    rw [Scalar.order_text_eq_iff.1 hab]
    rfl

end Value

end SellRules
