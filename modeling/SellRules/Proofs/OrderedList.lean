import Mathlib.Data.List.Pairwise
import SellRules.OrderedList

/-!
# Members of ordered lists

What an ordered list holds after elements were added, put or filtered. An element that is put takes
the place of an equal one (`mem_put_iff`, `toList_put_of_mem`), equal members are the same
(`eq_of_mem_of_mem`), and of elements without equal ones none is lost (`mem_ofList_iff`), so that
only the members of a list count (`ofList_eq_ofList_iff`). A union holds what either list holds, up
to equality (`contains_union_iff`) and as it is where equal elements are the same (`mem_union_iff`).
In a list that is ordered by a key there is at most one member for each key (`find?_eq_some_iff`,
`find?_put`).
-/

set_option autoImplicit false

namespace SellRules.OrderedList

open Std (TransCmp OrientedCmp)

variable {α : Type} {cmp : α → α → Ordering}

theorem not_mem_empty (x : α) : x ∉ (empty : OrderedList cmp) := by
  simp [mem_def, empty]

theorem mem_filter {s : OrderedList cmp} {p : α → Bool} {x : α} :
    x ∈ s.filter p ↔ x ∈ s ∧ p x = true :=
  List.mem_filter

theorem contains_eq_true_iff {s : OrderedList cmp} {x : α} :
    s.contains x = true ↔ ∃ b ∈ s, cmp x b = .eq := by
  simp only [contains, List.any_eq_true, beq_iff_eq]
  rfl

/-- Equal members are the same. -/
theorem eq_of_mem_of_mem [OrientedCmp cmp] {s : OrderedList cmp} {a b : α} (ha : a ∈ s)
    (hb : b ∈ s) (h : cmp a b = .eq) : a = b := by
  have : Std.Symm fun x y => cmp x y = .eq → x = y :=
    ⟨fun x y hxy hyx => (hxy (OrientedCmp.eq_symm hyx)).symm⟩
  have distinct : s.toList.Pairwise fun x y => cmp x y = .eq → x = y :=
    s.ascending.imp fun hlt heq => by simp [hlt] at heq
  exact distinct.forall_of_forall (fun x _ _ => rfl) ha hb h

/-- Beside others that all differ from it, a placed element comes in addition to them. -/
theorem place_perm {keep : Bool} {a : α} {l : List α} (h : ∀ b ∈ l, cmp a b ≠ .eq) :
    (place cmp keep a l).Perm (a :: l) := by
  induction l with
  | nil => exact .refl _
  | cons b l ih =>
    obtain ⟨hb, hl⟩ := List.forall_mem_cons.1 h
    unfold place
    split <;> rename_i hab
    · exact .refl _
    · exact absurd hab hb
    · exact ((ih hl).cons b).trans (.swap a b l)

variable [TransCmp cmp]

theorem mem_of_mem_insert {s : OrderedList cmp} {a x : α} (h : x ∈ s.insert a) :
    x = a ∨ x ∈ s :=
  mem_of_mem_place h

theorem mem_of_mem_insertAll {s : OrderedList cmp} {l : List α} {x : α}
    (h : x ∈ s.insertAll l) : x ∈ s ∨ x ∈ l := by
  induction l generalizing s with
  | nil => exact .inl h
  | cons a l ih =>
    rcases ih (s := s.insert a) h with h | h
    · rcases mem_of_mem_insert h with rfl | h
      · exact .inr (by simp)
      · exact .inl h
    · exact .inr (by simp [h])

theorem mem_of_mem_ofList {l : List α} {x : α} (h : x ∈ (ofList l : OrderedList cmp)) : x ∈ l :=
  (mem_of_mem_insertAll h).resolve_left (not_mem_empty x)

/-- What is in a list stays when an element is inserted. -/
theorem mem_insert_of_mem {s : OrderedList cmp} {a x : α} (h : x ∈ s) : x ∈ s.insert a := by
  have hplace : ∀ l : List α, x ∈ l → x ∈ place cmp true a l := by
    intro l hx
    induction l with
    | nil => cases hx
    | cons b l ih =>
      unfold place
      split
      · exact List.mem_cons_of_mem a hx
      · exact hx
      · rcases List.mem_cons.1 hx with rfl | hx
        · simp
        · exact List.mem_cons_of_mem b (ih hx)
  exact hplace s.toList h

/-- After an element is inserted, an equal one is there. -/
theorem exists_mem_insert (s : OrderedList cmp) (a : α) : ∃ b ∈ s.insert a, cmp a b = .eq := by
  have hplace : ∀ l : List α, ∃ b ∈ place cmp true a l, cmp a b = .eq := by
    intro l
    induction l with
    | nil => exact ⟨a, by simp [place], Std.ReflCmp.compare_self⟩
    | cons b l ih =>
      unfold place
      split <;> rename_i hab
      · exact ⟨a, by simp, Std.ReflCmp.compare_self⟩
      · exact ⟨b, by simp, hab⟩
      · obtain ⟨x, hx, hax⟩ := ih
        exact ⟨x, List.mem_cons_of_mem b hx, hax⟩
  exact hplace s.toList

theorem mem_insertAll_of_mem {s : OrderedList cmp} {l : List α} {x : α} (h : x ∈ s) :
    x ∈ s.insertAll l := by
  induction l generalizing s with
  | nil => exact h
  | cons a l ih => exact ih (mem_insert_of_mem h)

theorem exists_mem_insertAll (s : OrderedList cmp) {l : List α} {x : α} (h : x ∈ l) :
    ∃ b ∈ s.insertAll l, cmp x b = .eq := by
  induction l generalizing s with
  | nil => cases h
  | cons a l ih =>
    rcases List.mem_cons.1 h with rfl | h
    · obtain ⟨b, hb, hxb⟩ := exists_mem_insert s x
      exact ⟨b, mem_insertAll_of_mem (l := l) hb, hxb⟩
    · exact ih (s.insert a) h

/-- Where equal elements of a list are the same, the ordered list has all of them. -/
theorem mem_ofList_iff {l : List α} (h : ∀ a ∈ l, ∀ b ∈ l, cmp a b = .eq → a = b) {x : α} :
    x ∈ (ofList l : OrderedList cmp) ↔ x ∈ l := by
  refine ⟨mem_of_mem_ofList, fun hx => ?_⟩
  obtain ⟨b, hb, hxb⟩ := exists_mem_insertAll (empty : OrderedList cmp) hx
  obtain rfl := h x hx b (mem_of_mem_ofList hb) hxb
  exact hb

theorem ofList_toList (s : OrderedList cmp) : ofList s.toList = s :=
  ext_mem fun _ => mem_ofList_iff fun _ ha _ hb => eq_of_mem_of_mem ha hb

/-- Where equal elements are the same, neither the order of a list nor repetitions in it matter. -/
theorem ofList_eq_ofList_iff {l m : List α} (hl : ∀ a ∈ l, ∀ b ∈ l, cmp a b = .eq → a = b)
    (hm : ∀ a ∈ m, ∀ b ∈ m, cmp a b = .eq → a = b) :
    (ofList l : OrderedList cmp) = ofList m ↔ ∀ x, x ∈ l ↔ x ∈ m := by
  refine ⟨fun h x => ?_, fun h => ext_mem fun x => ?_⟩
  · rw [← mem_ofList_iff hl, h, mem_ofList_iff hm]
  · rw [mem_ofList_iff hl, mem_ofList_iff hm]
    exact h x

/-! ## Unions -/

theorem contains_union_iff {s t : OrderedList cmp} {x : α} :
    (s.union t).contains x = true ↔ s.contains x = true ∨ t.contains x = true := by
  simp only [contains_eq_true_iff]
  constructor
  · rintro ⟨b, hb, hxb⟩
    exact (mem_of_mem_insertAll hb).imp (⟨b, ·, hxb⟩) (⟨b, ·, hxb⟩)
  · rintro (⟨b, hb, hxb⟩ | ⟨b, hb, hxb⟩)
    · exact ⟨b, mem_insertAll_of_mem hb, hxb⟩
    · obtain ⟨c, hc, hbc⟩ := exists_mem_insertAll s hb
      exact ⟨c, hc, TransCmp.eq_trans hxb hbc⟩

/-- Where equal elements of two lists are the same, their union has all of them. -/
theorem mem_union_iff {s t : OrderedList cmp} (h : ∀ a ∈ s, ∀ b ∈ t, cmp a b = .eq → a = b)
    {x : α} : x ∈ s.union t ↔ x ∈ s ∨ x ∈ t := by
  refine ⟨mem_of_mem_insertAll, ?_⟩
  rintro (hx | hx)
  · exact mem_insertAll_of_mem hx
  · obtain ⟨b, hb, hxb⟩ := exists_mem_insertAll s hx
    rcases mem_of_mem_insertAll hb with hbs | hbt
    · obtain rfl := h b hbs x hx (OrientedCmp.eq_symm hxb)
      exact hb
    · obtain rfl := eq_of_mem_of_mem hx hbt hxb
      exact hb

/-! ## Elements that are put -/

/-- A placed element stands in the list beside the ones that differ from it. -/
theorem mem_place_iff {a x : α} {l : List α} (hl : l.Pairwise fun a b => cmp a b = .lt) :
    x ∈ place cmp false a l ↔ x = a ∨ x ∈ l ∧ cmp a x ≠ .eq := by
  induction l with
  | nil => simp [place]
  | cons b l ih =>
    obtain ⟨hb, hl⟩ := List.pairwise_cons.1 hl
    have greater : ∀ y ∈ l, cmp a b ≠ .gt → cmp a y ≠ .eq := by
      intro y hy hab heq
      have hlt := TransCmp.lt_of_isLE_of_lt (Ordering.isLE_iff_ne_gt.2 hab) (hb y hy)
      rw [heq] at hlt
      cases hlt
    unfold place
    split <;> rename_i hab
    · have hrest : ∀ y ∈ b :: l, cmp a y ≠ .eq := by
        intro y hy
        rcases List.mem_cons.1 hy with rfl | hy
        · simp [hab]
        · exact greater y hy (by simp [hab])
      rw [List.mem_cons]
      exact or_congr_right ⟨fun h => ⟨h, hrest x h⟩, And.left⟩
    · simp only [Bool.false_eq_true, ↓reduceIte, List.mem_cons]
      refine or_congr_right ⟨fun h => ⟨.inr h, greater x h (by simp [hab])⟩, ?_⟩
      rintro ⟨rfl | h, hne⟩
      · exact absurd hab hne
      · exact h
    · simp only [List.mem_cons, ih hl]
      constructor
      · rintro (rfl | rfl | ⟨h, hne⟩)
        · exact .inr ⟨.inl rfl, by simp [hab]⟩
        · exact .inl rfl
        · exact .inr ⟨.inr h, hne⟩
      · rintro (rfl | ⟨rfl | h, hne⟩)
        · exact .inr (.inl rfl)
        · exact .inl rfl
        · exact .inr (.inr ⟨h, hne⟩)

theorem mem_put_iff {s : OrderedList cmp} {a x : α} :
    x ∈ s.put a ↔ x = a ∨ x ∈ s ∧ cmp a x ≠ .eq :=
  mem_place_iff s.ascending

/-- An element that is placed where an equal one stands takes its place, and the others keep
theirs. -/
theorem place_eq_map {a : α} {l : List α} (hl : l.Pairwise fun a b => cmp a b = .lt)
    (h : ∃ b ∈ l, cmp a b = .eq) :
    place cmp false a l = l.map fun b => if cmp a b = .eq then a else b := by
  induction l with
  | nil => simp at h
  | cons b l ih =>
    obtain ⟨hb, hl⟩ := List.pairwise_cons.1 hl
    have greater (hab : cmp a b ≠ .gt) : ∀ x ∈ l, cmp a x = .lt := fun x hx =>
      TransCmp.lt_of_isLE_of_lt (Ordering.isLE_iff_ne_gt.2 hab) (hb x hx)
    unfold place
    split <;> rename_i hab
    · obtain ⟨x, hx, hax⟩ := h
      rcases List.mem_cons.1 hx with rfl | hx
      · rw [hab] at hax
        cases hax
      · rw [greater (by simp [hab]) x hx] at hax
        cases hax
    · have hrest : (l.map fun b => if cmp a b = .eq then a else b) = l.map id :=
        List.map_congr_left fun x hx => by rw [greater (by simp [hab]) x hx]; rfl
      rw [List.map_cons, if_pos hab, hrest, List.map_id]
      rfl
    · have hlater : ∃ x ∈ l, cmp a x = .eq := by
        obtain ⟨x, hx, hax⟩ := h
        rcases List.mem_cons.1 hx with rfl | hx
        · rw [hab] at hax
          cases hax
        · exact ⟨x, hx, hax⟩
      rw [List.map_cons, if_neg (by simp [hab]), ih hl hlater]

theorem toList_put_of_mem {s : OrderedList cmp} {a b : α} (hb : b ∈ s) (h : cmp a b = .eq) :
    (s.put a).toList = s.toList.map fun b => if cmp a b = .eq then a else b :=
  place_eq_map s.ascending ⟨b, hb, h⟩

/-! ## Lists that are ordered by a key -/

section Keyed

variable {κ : Type} {order : κ → κ → Ordering} [TransCmp order] (key : α → κ)

/-- What is found under a key is the member that has it. -/
theorem find?_eq_some_iff (hcmp : ∀ a b, cmp a b = order (key a) (key b)) {s : OrderedList cmp}
    {k : κ} {a : α} :
    (s.toList.find? fun b => order k (key b) == .eq) = some a ↔ a ∈ s ∧ order k (key a) = .eq := by
  constructor
  · intro h
    exact ⟨List.mem_of_find?_eq_some h, by simpa using List.find?_some h⟩
  · rintro ⟨hmem, hkey⟩
    obtain ⟨found, hfound⟩ :
        ∃ found, (s.toList.find? fun b => order k (key b) == .eq) = some found := by
      rw [← Option.isSome_iff_exists, List.find?_isSome]
      exact ⟨a, hmem, by simp [hkey]⟩
    have hsame : cmp found a = .eq := by
      have hfoundKey : order k (key found) = .eq := by simpa using List.find?_some hfound
      rw [hcmp]
      exact TransCmp.eq_trans (OrientedCmp.eq_symm hfoundKey) hkey
    rw [hfound, eq_of_mem_of_mem (List.mem_of_find?_eq_some hfound) hmem hsame]

/-- An element that is put is found under its key; no other key is concerned. -/
theorem find?_put (hcmp : ∀ a b, cmp a b = order (key a) (key b)) (s : OrderedList cmp) (a : α)
    (k : κ) :
    ((s.put a).toList.find? fun b => order k (key b) == .eq) =
      if order k (key a) = .eq then some a else s.toList.find? fun b => order k (key b) == .eq := by
  split <;> rename_i hkey
  · exact (find?_eq_some_iff key hcmp).2 ⟨mem_put_iff.2 (.inl rfl), hkey⟩
  · ext found
    rw [find?_eq_some_iff key hcmp, find?_eq_some_iff key hcmp, mem_put_iff, hcmp]
    constructor
    · rintro ⟨rfl | ⟨hmem, -⟩, hfound⟩
      · exact absurd hfound hkey
      · exact ⟨hmem, hfound⟩
    · rintro ⟨hmem, hfound⟩
      refine ⟨.inr ⟨hmem, fun heq => hkey ?_⟩, hfound⟩
      exact TransCmp.eq_trans hfound (OrientedCmp.eq_symm heq)

end Keyed

end SellRules.OrderedList
