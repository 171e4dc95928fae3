/-!
# Ordered lists

A list in strictly ascending order under a comparison, so that no two of its elements are equal under
it. It serves as a set and, when the comparison looks at keys alone, as a map. The order makes it
canonical: two ordered lists with the same members are the same.
-/

set_option autoImplicit false

namespace SellRules

open Std (TransCmp OrientedCmp)

variable {α : Type} {cmp : α → α → Ordering}

structure OrderedList (cmp : α → α → Ordering) where
  toList : List α
  ascending : toList.Pairwise fun a b => cmp a b = .lt

namespace OrderedList

instance [DecidableEq α] : DecidableEq (OrderedList cmp) := fun s t =>
  if h : s.toList = t.toList then .isTrue (by cases s; cases t; simp_all)
  else .isFalse fun e => h (e ▸ rfl)

/-- The place of an element in an ordered list. Where an equal one stands, `keep` tells whether it
stays or makes room. -/
def place (cmp : α → α → Ordering) (keep : Bool) (a : α) : List α → List α
  | [] => [a]
  | b :: l =>
    match cmp a b with
    | .lt => a :: b :: l
    | .eq => (if keep then b else a) :: l
    | .gt => b :: place cmp keep a l

theorem mem_of_mem_place {keep : Bool} {a x : α} {l : List α} (h : x ∈ place cmp keep a l) :
    x = a ∨ x ∈ l := by
  induction l with
  | nil => simpa [place] using h
  | cons b l ih =>
    unfold place at h
    split at h
    · simpa using h
    · cases keep <;> simp at h <;> rcases h with rfl | h <;> simp [*]
    · simp only [List.mem_cons] at h ⊢
      rcases h with rfl | h
      · simp
      · rcases ih h with rfl | h <;> simp [*]

theorem pairwise_place [TransCmp cmp] (keep : Bool) (a : α) {l : List α}
    (h : l.Pairwise fun a b => cmp a b = .lt) :
    (place cmp keep a l).Pairwise fun a b => cmp a b = .lt := by
  induction l with
  | nil => simp [place]
  | cons b l ih =>
    obtain ⟨hb, hl⟩ := List.pairwise_cons.1 h
    unfold place
    split
    · rename_i hab
      refine List.pairwise_cons.2 ⟨fun x hx => ?_, h⟩
      rcases List.mem_cons.1 hx with rfl | hx
      · exact hab
      · exact TransCmp.lt_trans hab (hb x hx)
    · rename_i hab
      cases keep
      · exact List.pairwise_cons.2 ⟨fun x hx => (TransCmp.congr_left hab).trans (hb x hx), hl⟩
      · exact h
    · rename_i hab
      refine List.pairwise_cons.2 ⟨fun x hx => ?_, ih hl⟩
      rcases mem_of_mem_place hx with rfl | hx
      · exact OrientedCmp.lt_of_gt hab
      · exact hb x hx

/-- The list without elements. -/
def empty : OrderedList cmp := ⟨[], .nil⟩

/-- Adds an element unless an equal one is there. -/
def insert [TransCmp cmp] (a : α) (s : OrderedList cmp) : OrderedList cmp :=
  ⟨place cmp true a s.toList, pairwise_place true a s.ascending⟩

/-- Adds an element in the place of an equal one, if there is one. -/
def put [TransCmp cmp] (a : α) (s : OrderedList cmp) : OrderedList cmp :=
  ⟨place cmp false a s.toList, pairwise_place false a s.ascending⟩

/-- The elements that satisfy a test. -/
def filter (p : α → Bool) (s : OrderedList cmp) : OrderedList cmp :=
  ⟨s.toList.filter p, s.ascending.filter p⟩

/-- Adds the elements of a list from left to right. -/
def insertAll [TransCmp cmp] (s : OrderedList cmp) (l : List α) : OrderedList cmp :=
  l.foldl (fun s a => s.insert a) s

/-- The ordered list with the elements of a list; of equal ones the first. -/
def ofList [TransCmp cmp] (l : List α) : OrderedList cmp := empty.insertAll l

/-- The elements of both, those of the first where two are equal. -/
def union [TransCmp cmp] (s t : OrderedList cmp) : OrderedList cmp := s.insertAll t.toList

/-- Whether an element equal to the given one is there. -/
def contains (s : OrderedList cmp) (a : α) : Bool := s.toList.any fun b => cmp a b == .eq

def isEmpty (s : OrderedList cmp) : Bool := s.toList.isEmpty

def size (s : OrderedList cmp) : Nat := s.toList.length

instance : Membership α (OrderedList cmp) := ⟨fun s a => a ∈ s.toList⟩

theorem mem_def {a : α} {s : OrderedList cmp} : a ∈ s ↔ a ∈ s.toList := Iff.rfl

theorem toList_injective {s t : OrderedList cmp} (h : s.toList = t.toList) : s = t := by
  cases s; cases t; simp_all

theorem eq_of_pairwise_of_mem_iff [OrientedCmp cmp] {l m : List α}
    (hl : l.Pairwise fun a b => cmp a b = .lt) (hm : m.Pairwise fun a b => cmp a b = .lt)
    (h : ∀ x, x ∈ l ↔ x ∈ m) : l = m := by
  have irrefl : ∀ {a b : α}, cmp a b = .lt → cmp b a = .lt → False := fun {a b} hab hba => by
    rw [OrientedCmp.gt_of_lt hab] at hba
    cases hba
  induction l generalizing m with
  | nil =>
    cases m with
    | nil => rfl
    | cons b m => exact absurd ((h b).2 (by simp)) (by simp)
  | cons a l ih =>
    cases m with
    | nil => exact absurd ((h a).1 (by simp)) (by simp)
    | cons b m =>
      obtain ⟨ha, tailₗ⟩ := List.pairwise_cons.1 hl
      obtain ⟨hb, tailₘ⟩ := List.pairwise_cons.1 hm
      have hab : a = b := by
        rcases List.mem_cons.1 ((h a).1 (by simp)) with e | hmem
        · exact e
        · rcases List.mem_cons.1 ((h b).2 (by simp)) with e | hmem'
          · exact e.symm
          · exact (irrefl (hb a hmem) (ha b hmem')).elim
      subst hab
      refine congrArg (a :: ·) (ih tailₗ tailₘ fun x => ⟨fun hx => ?_, fun hx => ?_⟩)
      · rcases List.mem_cons.1 ((h x).1 (List.mem_cons_of_mem a hx)) with rfl | hx'
        · exact (irrefl (ha x hx) (ha x hx)).elim
        · exact hx'
      · rcases List.mem_cons.1 ((h x).2 (List.mem_cons_of_mem a hx)) with rfl | hx'
        · exact (irrefl (hb x hx) (hb x hx)).elim
        · exact hx'

/-- Ordered lists with the same members are the same. -/
theorem ext_mem [OrientedCmp cmp] {s t : OrderedList cmp} (h : ∀ x, x ∈ s ↔ x ∈ t) : s = t :=
  toList_injective (eq_of_pairwise_of_mem_iff s.ascending t.ascending h)

end OrderedList
end SellRules
