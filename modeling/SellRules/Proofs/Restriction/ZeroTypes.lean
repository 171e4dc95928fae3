import Mathlib.Tactic.ByContra
import SellRules.Proofs.Restriction.Lookup
import SellRules.Proofs.Restriction.Typed

/-!
# Type ids of zero

A type id of zero is no type. The type ids of items, weapons and armors are tested before they are
looked up, so zero is never found among them. The equipment type of a weapon or an armor is looked
up as it is: where the restrictions name the equipment type zero, it finds itself
(`RestrictionSet.FindsZero`), and that is the only difference that a zero makes.
-/

set_option autoImplicit false

namespace SellRules

/-- A type id, with nothing in the place of zero. -/
def Value.withoutZero (v : Value) : Value := if v = .int 0 then .null else v

namespace Entry

/-- The entry with nothing in the place of type ids of zero. -/
def withoutZeroTypes (e : Entry) : Entry :=
  { e with
    itemTypeId := e.itemTypeId.withoutZero
    weaponTypeId := e.weaponTypeId.withoutZero
    armorTypeId := e.armorTypeId.withoutZero
    equipmentTypeId := e.equipmentTypeId.withoutZero }

/-- Each type id is a whole number or nothing. -/
def WholeTypes (e : Entry) : Prop :=
  ∀ v ∈ e.typeIds, v = .null ∨ ∃ n, v = .int n

end Entry

theorem Entry.WholeTypes.hasParts {e : Entry} (h : e.WholeTypes) {v : Value}
    (hv : v ∈ e.typeIds) : v.hasParts = false := by
  rcases h v hv with rfl | ⟨n, rfl⟩ <;> rfl

namespace RestrictionSet

variable {r : RestrictionSet} {e : Entry}

/-- Answers that count when a type id is one. -/
def answersFor (typeId : Value) (answers : Value → List (Except Failure Bool)) :
    List (Except Failure Bool) :=
  if typeId.truthy then answers typeId else []

theorem answersFor_withoutZero (v : Value) (answers : Value → List (Except Failure Bool)) :
    answersFor v.withoutZero answers = answersFor v answers := by
  unfold Value.withoutZero
  split
  next h => subst h; rfl
  next => rfl

/-- The answers for an entry whose equipment type gets the given one. -/
def answersBy (r : RestrictionSet) (e : Entry) (equipment : Except Failure Bool) :
    List (Except Failure Bool) :=
  answersFor e.weaponTypeId (fun v => [r.weaponIds.has e.id, r.weaponTypeIds.has v, equipment]) ++
  (answersFor e.armorTypeId (fun v => [r.armorIds.has e.id, r.armorTypeIds.has v, equipment]) ++
  (answersFor e.itemTypeId (fun v => [r.itemTypeIds.has v, r.itemIds.has e.id]) ++ r.tagAnswers e))

theorem allows_eq_answersBy (r : RestrictionSet) (e : Entry) :
    r.allows e = firstYes (r.answersBy e (r.equipmentTypeIds.has e.equipmentTypeId)) := by
  simp only [allows, idAnswers, answersBy, answersFor, List.append_assoc]

/-- Of the type ids, only the equipment type is looked up when it is zero. -/
theorem allows_withoutZeroTypes (r : RestrictionSet) (e : Entry) :
    r.allows e.withoutZeroTypes =
      firstYes (r.answersBy e (r.equipmentTypeIds.has e.equipmentTypeId.withoutZero)) := by
  rw [allows_eq_answersBy]
  unfold answersBy Entry.withoutZeroTypes
  simp only [answersFor_withoutZero]
  rfl

/-! ## When zero is found -/

/-- A weapon or armor has the equipment type zero, and the restrictions name it. -/
structure FindsZero (r : RestrictionSet) (e : Entry) : Prop where
  zero : e.equipmentTypeId = .int 0
  named : .int 0 ∈ r.equipmentTypeIds
  worn : e.weaponTypeId.truthy = true ∨ e.armorTypeId.truthy = true
  /-- The id can be looked up. -/
  plain : e.id.hasParts = false

/-- A weapon or armor whose equipment type is found is allowed. -/
theorem firstYes_answersBy_true (he : e.WholeTypes)
    (hworn : e.weaponTypeId.truthy = true ∨ e.armorTypeId.truthy = true)
    (hid : e.id.hasParts = false) : firstYes (r.answersBy e (.ok true)) = .ok true := by
  have found : ∀ (ids types : ScalarSet) (v : Value) (rest : List (Except Failure Bool)),
      v.hasParts = false → firstYes ([ids.has e.id, types.has v, .ok true] ++ rest) = .ok true := by
    intro ids types v rest hv
    obtain ⟨a, ha⟩ := ScalarSet.has_of_not_hasParts hid ids
    obtain ⟨b, hb⟩ := ScalarSet.has_of_not_hasParts hv types
    rw [ha, hb]
    cases a <;> cases b <;> rfl
  unfold answersBy answersFor
  by_cases hw : e.weaponTypeId.truthy = true
  · rw [if_pos hw]
    exact found _ _ _ _ (he.hasParts (by simp [Entry.typeIds]))
  · rw [if_neg hw, if_pos (hworn.resolve_left hw)]
    exact found _ _ _ _ (he.hasParts (by simp [Entry.typeIds]))

/-- If an equipment type makes a difference, it is that of a weapon or armor, and the id can be
looked up. -/
theorem of_firstYes_answersBy_ne {a b : Except Failure Bool}
    (h : firstYes (r.answersBy e a) ≠ firstYes (r.answersBy e b)) :
    (e.weaponTypeId.truthy = true ∨ e.armorTypeId.truthy = true) ∧ e.id.hasParts = false := by
  by_cases hworn : e.weaponTypeId.truthy = true ∨ e.armorTypeId.truthy = true
  · refine ⟨hworn, ?_⟩
    by_contra hid
    have hparts : ∀ s : ScalarSet, s.has e.id = .error .shape :=
      ScalarSet.has_of_hasParts (by simpa using hid)
    refine h ?_
    unfold answersBy answersFor
    by_cases hw : e.weaponTypeId.truthy = true
    · rw [if_pos hw, if_pos hw, hparts]
      rfl
    · rw [if_neg hw, if_neg hw, if_pos (hworn.resolve_left hw), if_pos (hworn.resolve_left hw),
        hparts]
      rfl
  · obtain ⟨hw, ha⟩ := not_or.1 hworn
    refine absurd ?_ h
    unfold answersBy answersFor
    rw [if_neg hw, if_neg hw, if_neg ha, if_neg ha]

/-- **Zero type ids count as absent, except where zero is found.** An entry gets the same answer
with nothing in the place of its zero type ids, unless its equipment type is a zero that the
restrictions name and nothing else allows it; then it is allowed on account of the zero. -/
theorem allows_withoutZeroTypes_iff (hr : r.WholeIds) (he : e.WholeTypes) :
    (r.allows e.withoutZeroTypes = r.allows e ↔
      (r.FindsZero e → r.allows e.withoutZeroTypes = .ok true)) ∧
    (r.FindsZero e → r.allows e = .ok true) := by
  have hints : ∀ a ∈ r.equipmentTypeIds, ∃ n, a = .int n :=
    hr .equipmentTypeIds (by decide)
  have hallowed : r.FindsZero e → r.allows e = .ok true := by
    intro h
    have hfound : r.equipmentTypeIds.has e.equipmentTypeId = .ok true := by
      rw [h.zero]
      exact congrArg Except.ok ((ScalarSet.contains_int hints).2 h.named)
    rw [allows_eq_answersBy, hfound]
    exact firstYes_answersBy_true he h.worn h.plain
  refine ⟨⟨fun h hzero => h.trans (hallowed hzero), fun h => ?_⟩, hallowed⟩
  by_contra hne
  have hzero : r.FindsZero e := by
    rw [allows_withoutZeroTypes, allows_eq_answersBy] at hne
    obtain ⟨hworn, hid⟩ := of_firstYes_answersBy_ne hne
    have hequipment : e.equipmentTypeId = .int 0 := by
      by_contra h0
      exact hne (by rw [Value.withoutZero, if_neg h0])
    refine ⟨hequipment, ?_, hworn, hid⟩
    by_contra hnamed
    have hnone : r.equipmentTypeIds.contains (.int 0) = false :=
      Bool.eq_false_iff.2 fun h => hnamed ((ScalarSet.contains_int hints).1 h)
    refine hne ?_
    rw [hequipment]
    have hnull := ScalarSet.contains_null hints
    simp only [Value.withoutZero, ScalarSet.has, Scalar.ofValue?, ↓reduceIte, hnone, hnull]
  exact hne ((h hzero).trans (hallowed hzero).symm)

/-- All type ids of zero as restrictions. -/
def zeroTypes : RestrictionSet :=
  .ofRules [(.itemTypeIds, .int 0), (.weaponTypeIds, .int 0), (.armorTypeIds, .int 0),
    (.equipmentTypeIds, .int 0)]

theorem typed_zeroTypes : zeroTypes.Typed := by
  refine typed_ofRules fun x hx => ?_
  simp only [List.mem_cons, List.not_mem_nil, or_false] at hx
  rcases hx with rfl | rfl | rfl | rfl <;> exact suits_int (by decide) 0

/-- A weapon that has no equipment type. -/
def sword : Entry where
  id := .int 1
  name := .text "sword"
  kind := .weapon
  weaponTypeId := .int 1
  equipmentTypeId := .int 0

/-- An armor that has an equipment type. -/
def shield : Entry where
  id := .int 2
  name := .text "shield"
  kind := .armor
  itemTypeId := .int 0
  armorTypeId := .int 3
  equipmentTypeId := .int 1

theorem wholeTypes_sword : sword.WholeTypes := by
  intro v hv
  simp only [Entry.typeIds, sword, List.mem_cons, List.not_mem_nil, or_false] at hv
  rcases hv with rfl | rfl | rfl | rfl <;> simp

theorem wholeTypes_shield : shield.WholeTypes := by
  intro v hv
  simp only [Entry.typeIds, shield, List.mem_cons, List.not_mem_nil, or_false] at hv
  rcases hv with rfl | rfl | rfl | rfl <;> simp

/-- The zero of the shield counts as absent. -/
theorem allows_shield_withoutZeroTypes :
    zeroTypes.WholeIds ∧ shield.WholeTypes ∧
      zeroTypes.allows shield.withoutZeroTypes = zeroTypes.allows shield :=
  ⟨typed_zeroTypes.ids, wholeTypes_shield,
    (allows_withoutZeroTypes_iff typed_zeroTypes.ids wholeTypes_shield).1.2 fun h => nomatch h.zero⟩

/-- The zero of the sword is found: it does not count as absent. -/
theorem zero_equipment_type_is_found :
    zeroTypes.WholeIds ∧ sword.WholeTypes ∧ zeroTypes.allows sword = .ok true ∧
      zeroTypes.allows sword.withoutZeroTypes = .ok false :=
  ⟨typed_zeroTypes.ids, wholeTypes_sword, by decide +kernel, by decide +kernel⟩

end RestrictionSet

end SellRules
