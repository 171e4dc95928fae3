import SellRules.Value.Quoted

/-!
# Levels

A value is shown level by level, and what it is made up of in the end must be shown as well. So a
value can be shown exactly if each of its whole numbers can be and its lists and objects do not stand
too deep inside one another (`Value.isShown_iff`). What holds of all ends of a value is said by
`Value.every`.
-/

set_option autoImplicit false

namespace SellRules.Value

/-! ## The ends of a value -/

mutual

/-- Whether a condition holds of all the values without parts that a value is made up of. -/
def every (p : Value → Bool) : Value → Bool
  | .list items => itemsEvery p items
  | .object fields => fieldsEvery p fields
  | v => p v

def itemsEvery (p : Value → Bool) : List Value → Bool
  | [] => true
  | v :: rest => every p v && itemsEvery p rest

def fieldsEvery (p : Value → Bool) : List (String × Value) → Bool
  | [] => true
  | (_, v) :: rest => every p v && fieldsEvery p rest

end

variable {p q : Value → Bool} {items : List Value} {fields : Fields} {room : Nat}

/-- A value without levels is its own end. -/
theorem every_of_levels_eq_zero {v : Value} (h : v.levels = 0) : every p v = p v := by
  cases v with
  | list items => cases h
  | object fields => cases h
  | _ => simp only [every]

theorem itemsEvery_iff : itemsEvery p items = true ↔ ∀ v ∈ items, every p v = true := by
  induction items with
  | nil => simp [itemsEvery]
  | cons v items ih => simp [itemsEvery, ih]

theorem fieldsEvery_iff :
    fieldsEvery p fields = true ↔ ∀ field ∈ fields, every p field.2 = true := by
  induction fields with
  | nil => simp [fieldsEvery]
  | cons field fields ih => simp [fieldsEvery, ih]

theorem itemsLevels_le_iff : itemsLevels items ≤ room ↔ ∀ v ∈ items, v.levels ≤ room := by
  induction items with
  | nil => simp [itemsLevels]
  | cons v items ih => rw [itemsLevels, Nat.max_le, ih, List.forall_mem_cons]

theorem fieldsLevels_le_iff :
    fieldsLevels fields ≤ room ↔ ∀ field ∈ fields, field.2.levels ≤ room := by
  induction fields with
  | nil => simp [fieldsLevels]
  | cons field fields ih => rw [fieldsLevels, Nat.max_le, ih, List.forall_mem_cons]

mutual

theorem every_of_imp (h : ∀ v, p v = true → q v = true) :
    ∀ {v : Value}, every p v = true → every q v = true
  | .null | .bool _ | .int _ | .float _ | .text _ | .unpaired _ => fun hv => by
    simp only [every] at hv ⊢
    exact h _ hv
  | .list _ => fun hv => by
    rw [every] at hv ⊢
    exact itemsEvery_of_imp h hv
  | .object _ => fun hv => by
    rw [every] at hv ⊢
    exact fieldsEvery_of_imp h hv

theorem itemsEvery_of_imp (h : ∀ v, p v = true → q v = true) :
    ∀ {items : List Value}, itemsEvery p items = true → itemsEvery q items = true
  | [], _ => rfl
  | v :: rest, hitems => by
    rw [itemsEvery, Bool.and_eq_true] at hitems ⊢
    exact ⟨every_of_imp h hitems.1, itemsEvery_of_imp h hitems.2⟩

theorem fieldsEvery_of_imp (h : ∀ v, p v = true → q v = true) :
    ∀ {fields : List (String × Value)}, fieldsEvery p fields = true → fieldsEvery q fields = true
  | [], _ => rfl
  | (_, v) :: rest, hfields => by
    rw [fieldsEvery, Bool.and_eq_true] at hfields ⊢
    exact ⟨every_of_imp h hfields.1, fieldsEvery_of_imp h hfields.2⟩

end

/-! ## What can be shown -/

/-- Whether a value is no whole number with too many digits. -/
def hasShownDigits : Value → Bool
  | .int n => Number.isShown n
  | _ => true

mutual

theorem obstacleWithin?_eq_none_iff : ∀ {v : Value} {room : Nat},
    obstacleWithin? room v = none ↔ every hasShownDigits v = true ∧ v.levels ≤ room
  | .null, _ | .bool _, _ | .float _, _ | .text _, _ | .unpaired _, _ => by
    simp [obstacleWithin?, every, hasShownDigits, levels]
  | .int n, _ => by simp [obstacleWithin?, every, hasShownDigits, levels]
  | .list _, 0 | .object _, 0 => by simp [obstacleWithin?, levels]
  | .list items, room + 1 => by
    rw [obstacleWithin?, itemsObstacle?_eq_none_iff, every, levels, Nat.add_le_add_iff_right]
  | .object fields, room + 1 => by
    rw [obstacleWithin?, fieldsObstacle?_eq_none_iff, every, levels, Nat.add_le_add_iff_right]

theorem itemsObstacle?_eq_none_iff : ∀ {items : List Value} {room : Nat},
    itemsObstacle? room items = none ↔
      itemsEvery hasShownDigits items = true ∧ itemsLevels items ≤ room
  | [], _ => by simp [itemsObstacle?, itemsEvery, itemsLevels]
  | v :: rest, room => by
    rw [itemsObstacle?, Option.or_eq_none_iff, obstacleWithin?_eq_none_iff,
      itemsObstacle?_eq_none_iff, itemsEvery, itemsLevels, Bool.and_eq_true, Nat.max_le,
      and_and_and_comm]

theorem fieldsObstacle?_eq_none_iff : ∀ {fields : List (String × Value)} {room : Nat},
    fieldsObstacle? room fields = none ↔
      fieldsEvery hasShownDigits fields = true ∧ fieldsLevels fields ≤ room
  | [], _ => by simp [fieldsObstacle?, fieldsEvery, fieldsLevels]
  | (_, v) :: rest, room => by
    rw [fieldsObstacle?, Option.or_eq_none_iff, obstacleWithin?_eq_none_iff,
      fieldsObstacle?_eq_none_iff, fieldsEvery, fieldsLevels, Bool.and_eq_true, Nat.max_le,
      and_and_and_comm]

end

/-- **What can be shown**: a value whose whole numbers can all be shown and whose lists and objects
do not stand too deep inside one another. -/
theorem isShown_iff {v : Value} :
    v.isShown = true ↔ every hasShownDigits v = true ∧ v.levels ≤ maxLevels := by
  rw [isShown, Option.isNone_iff_eq_none, obstacle?, obstacleWithin?_eq_none_iff]

@[simp] theorem isShown_int (n : Int) : (int n).isShown = Number.isShown n := by
  rw [Bool.eq_iff_iff, isShown_iff]
  simp [every, hasShownDigits, levels]

end SellRules.Value
