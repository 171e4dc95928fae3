import SellRules.Proofs.OrderedList
import SellRules.Restriction.Allow

/-!
# Looking up ids and tags

What a set answers for a value: yes for a member, no for anything else without parts, and a failure
for a value with parts. Of several answers the first yes or failure counts.
-/

set_option autoImplicit false

namespace SellRules

/-! ## Answers -/

namespace RestrictionSet

/-- Answers that are all no are passed over. -/
theorem firstYes_append_of_no {l : List (Except Failure Bool)} (h : ∀ a ∈ l, a = .ok false)
    (rest : List (Except Failure Bool)) : firstYes (l ++ rest) = firstYes rest := by
  induction l with
  | nil => rfl
  | cons a l ih =>
    rw [h a (by simp)]
    exact ih fun x hx => h x (by simp [hx])

/-- A yes comes from one of the answers. -/
theorem mem_of_firstYes {l : List (Except Failure Bool)} (h : firstYes l = .ok true) :
    .ok true ∈ l := by
  induction l with
  | nil => cases h
  | cons a l ih =>
    match a with
    | .ok true => simp
    | .ok false => exact List.mem_cons_of_mem _ (ih h)
    | .error failure => cases h

/-- A yes that no failure precedes is the answer. -/
theorem firstYes_append_of_yes {l : List (Except Failure Bool)} (h : ∀ a ∈ l, ∃ b, a = .ok b)
    (hyes : .ok true ∈ l) (rest : List (Except Failure Bool)) :
    firstYes (l ++ rest) = .ok true := by
  induction l with
  | nil => cases hyes
  | cons a l ih =>
    obtain ⟨b, rfl⟩ := h a (by simp)
    cases b with
    | true => rfl
    | false => exact ih (fun x hx => h x (by simp [hx])) (by simpa using hyes)

/-- Answers without a failure have an answer. -/
theorem exists_firstYes {l : List (Except Failure Bool)} (h : ∀ a ∈ l, ∃ b, a = .ok b) :
    ∃ b, firstYes l = .ok b := by
  induction l with
  | nil => exact ⟨false, rfl⟩
  | cons a l ih =>
    obtain ⟨b, rfl⟩ := h a (by simp)
    cases b with
    | true => exact ⟨true, rfl⟩
    | false => exact ih fun x hx => h x (by simp [hx])

end RestrictionSet

/-! ## Members -/

/-- Whether a value is a list or an object. -/
def Value.hasParts : Value → Bool
  | .list _ | .object _ => true
  | _ => false

namespace Scalar

theorem unitsOfInt_inj {m n : Int} :
    Number.Binary64.unitsOfInt m = Number.Binary64.unitsOfInt n ↔ m = n := by
  unfold Number.Binary64.unitsOfInt
  generalize (-Number.Binary64.minExponent).toNat = k
  have hpos : 0 < Nat.pow 2 k := Nat.two_pow_pos k
  exact Int.mul_eq_mul_right_iff (by omega)

theorem order_int_eq {m n : Int} : order (.int m) (.int n) = .eq ↔ m = n := by
  simp [order, compareOn, rank, units, wording, unitsOfInt_inj]

theorem unitsOfInt_lt {m n : Int} :
    Number.Binary64.unitsOfInt m < Number.Binary64.unitsOfInt n ↔ m < n := by
  unfold Number.Binary64.unitsOfInt
  generalize (-Number.Binary64.minExponent).toNat = k
  have hpos : 0 < Nat.pow 2 k := Nat.two_pow_pos k
  exact Int.mul_lt_mul_right (by omega)

theorem order_int_lt {m n : Int} : order (.int m) (.int n) = .lt ↔ m < n := by
  rw [← unitsOfInt_lt]
  simp [order, compareLex, compareOn, rank, units, wording, Std.compare_eq_lt]

theorem order_null_int (n : Int) : order .null (.int n) ≠ .eq := by
  simp [order, compareOn, rank]

end Scalar

namespace ScalarSet

theorem has_of_hasParts {v : Value} (h : v.hasParts = true) (s : ScalarSet) :
    s.has v = .error .shape := by
  cases v <;> first | rfl | cases h

theorem has_of_not_hasParts {v : Value} (h : v.hasParts = false) (s : ScalarSet) :
    ∃ b, s.has v = .ok b := by
  cases v <;> first | exact ⟨_, rfl⟩ | cases h

/-- Nothing without parts is in the empty set. -/
theorem has_empty {v : Value} (h : v.hasParts = false) :
    ScalarSet.has .empty v = .ok false := by
  cases v <;> first | rfl | cases h

variable {s : ScalarSet} (hs : ∀ a ∈ s, ∃ n, a = .int n)
include hs

/-- A whole number is in a set of whole numbers if it is a member. -/
theorem contains_int {n : Int} : s.contains (.int n) = true ↔ .int n ∈ s := by
  simp only [OrderedList.contains, List.any_eq_true, beq_iff_eq]
  constructor
  · rintro ⟨a, ha, heq⟩
    obtain ⟨m, rfl⟩ := hs a ha
    obtain rfl := Scalar.order_int_eq.1 heq
    exact ha
  · exact fun hn => ⟨_, hn, Scalar.order_int_eq.2 rfl⟩

theorem contains_null : s.contains .null = false := by
  simp only [OrderedList.contains, List.any_eq_false, beq_iff_eq]
  intro a ha
  obtain ⟨n, rfl⟩ := hs a ha
  exact Scalar.order_null_int n

end ScalarSet

/-! ## Keys with whole numbers -/

namespace Key

variable {kind other : Kind} {m n : Int}

theorem compare_rank_eq : compare kind.rank other.rank = .eq ↔ kind = other := by
  cases kind <;> cases other <;> decide

theorem order_int_eq : order ⟨kind, .int m⟩ ⟨other, .int n⟩ = .eq ↔ kind = other ∧ m = n := by
  rw [order, compareLex, Ordering.then_eq_eq, compareOn, compare_rank_eq, idOrder,
    Scalar.order_int_eq]

theorem order_int_lt :
    order ⟨kind, .int m⟩ ⟨other, .int n⟩ = .lt ↔
      kind.rank < other.rank ∨ kind = other ∧ m < n := by
  rw [order, compareLex, Ordering.then_eq_lt, compareOn, compare_rank_eq, idOrder,
    Scalar.order_int_lt, Std.compare_eq_lt]

end Key

/-! ## Ids of entries -/

namespace Entry

theorem key_of_id {e : Entry} {n : Int} (h : e.id = .int n) : e.key = .ok ⟨e.kind, .int n⟩ := by
  rw [key, h]
  rfl

def typeIds (e : Entry) : List Value :=
  [e.itemTypeId, e.weaponTypeId, e.armorTypeId, e.equipmentTypeId]

/-- The id and the type ids can be looked up. -/
def Plain (e : Entry) : Prop := ∀ v ∈ e.id :: e.typeIds, v.hasParts = false

/-- The parts are fit for a sale: the id makes a key, the type ids can be looked up, the markers are
an object and the name can be shown. Whole numbers, texts and nothing are. -/
structure Fit (e : Entry) : Prop where
  key : ∃ key, e.key = .ok key
  types : ∀ v ∈ e.typeIds, v.hasParts = false
  markers : ∃ fields, e.markers = .object fields
  name : e.name.isShown = true

theorem Fit.plain {e : Entry} (h : e.Fit) : e.Plain := by
  obtain ⟨key, hkey⟩ := h.key
  have hid : e.id.hasParts = false := by
    cases hv : e.id with
    | list items | object fields =>
      rw [Entry.key, hv] at hkey
      cases hkey
    | _ => rfl
  exact List.forall_mem_cons.2 ⟨hid, h.types⟩

end Entry

namespace RestrictionSet

/-- Every answer about the ids of a plain entry is that of a set for an id or a type id. -/
theorem exists_idAnswer (r : RestrictionSet) {e : Entry} (he : e.Plain) {a : Except Failure Bool}
    (ha : a ∈ r.idAnswers e) : ∃ b, a = .ok b := by
  obtain ⟨s, v, hv, rfl⟩ : ∃ s : ScalarSet, ∃ v ∈ e.id :: e.typeIds, a = s.has v := by
    simp only [idAnswers, List.mem_append, List.mem_ite_nil_right, List.mem_cons, List.not_mem_nil,
      or_false] at ha
    rcases ha with (⟨-, rfl | rfl | rfl⟩ | ⟨-, rfl | rfl | rfl⟩) | ⟨-, rfl | rfl⟩ <;>
      exact ⟨_, _, by simp [Entry.typeIds], rfl⟩
  exact ScalarSet.has_of_not_hasParts (he v hv) s

/-- Among the markers of an object every tag has an answer. -/
theorem exists_tagAnswer (r : RestrictionSet) {e : Entry} {markers : Fields}
    (he : e.markers = .object markers) {a : Except Failure Bool} (ha : a ∈ r.tagAnswers e) :
    ∃ b, a = .ok b := by
  obtain ⟨tag, -, rfl⟩ := List.mem_map.1 ha
  simp only [marked, he]
  cases tag <;> exact ⟨_, rfl⟩

/-- Whether a restriction set allows a plain entry has an answer if the markers are an object. -/
theorem exists_allows (r : RestrictionSet) {e : Entry} (he : e.Plain) {markers : Fields}
    (hmarkers : e.markers = .object markers) : ∃ b, r.allows e = .ok b :=
  exists_firstYes fun _ ha =>
    (List.mem_append.1 ha).elim (exists_idAnswer r he) (exists_tagAnswer r hmarkers)

/-- Whether a shop buys a fit entry has an answer. -/
theorem exists_buys (r : Option RestrictionSet) {e : Entry} (he : e.Fit) :
    ∃ b, buys r e = .ok b := by
  cases r with
  | none => exact ⟨true, rfl⟩
  | some r =>
    obtain ⟨markers, hmarkers⟩ := he.markers
    exact exists_allows r he.plain hmarkers

end RestrictionSet

end SellRules
