import SellRules.Proofs.Entry.Record
import SellRules.Proofs.Party.Inventory

/-!
# Holdings

The inventories that come about by adding and taking away whole amounts (`Inventory.Arises`). Every
line of one stands under the key of its entry and holds a whole amount above zero
(`Inventory.Arises.sound`), so the lines can be listed (`Inventory.Arises.lines_eq`). Taking some of
a line away changes the list of lines in that place alone (`Inventory.toList_leaving`), whatever part
of the list is shown (`Line.filter_leaving`).
-/

set_option autoImplicit false

namespace SellRules

open Std (TransCmp OrientedCmp)

/-- An entry with whole numbers as id and price, type ids that can be looked up and an object of
markers. -/
structure Entry.Tradable (entry : Entry) : Prop where
  describes : Record.Describes entry.kind entry
  price : ∃ price, entry.price = .int price

/-- A line as it comes about: under the key of its entry, with some of it held. -/
structure Line.Sound (line : Line) : Prop where
  tradable : line.entry.Tradable
  key : line.entry.key = .ok line.key
  amount : ∃ held : Int, 0 < held ∧ line.amount = .whole held

theorem Line.Sound.exists_id {line : Line} (h : line.Sound) : ∃ n, line.key.id = .int n := by
  obtain ⟨n, -, hkey⟩ := h.tradable.describes.key_eq
  exact ⟨n, congrArg Key.id (Except.ok.inj (h.key.symm.trans hkey))⟩

/-- The lines with `left` in one of them, which goes when that is nothing. -/
def Line.leaving (line : Line) (left : Int) (lines : List Line) : List Line :=
  if left = 0 then lines.filter (· ≠ line)
  else lines.map fun other => if other = line then { line with amount := .whole left } else other

/-- Lines that are chosen by their entries are chosen before or after one of them changes. -/
theorem Line.filter_leaving (p : Entry → Bool) (line : Line) (left : Int) (lines : List Line) :
    (line.leaving left lines).filter (fun line => p line.entry) =
      line.leaving left (lines.filter fun line => p line.entry) := by
  unfold Line.leaving
  split
  · exact List.filter_comm ..
  · rw [List.filter_map]
    refine congrArg _ (List.filter_congr fun other _ => ?_)
    rw [Function.comp_apply]
    split
    next h => rw [h]
    next => rfl

namespace Inventory

variable {inventory next : Inventory} {entry : Entry} {key : Key} {line : Line} {held n : Int}

/-! ## What changes -/

/-- An amount of zero or less adds nothing; any other is added to the line under the entry's key or
makes one. -/
theorem add_cases (hcounted : inventory.Counted)
    (h : inventory.add entry (.whole n) = .ok next) :
    next = inventory ∨ 0 < n ∧ ∃ key, entry.key = .ok key ∧
      (inventory.find? key = none ∧ next = inventory.put ⟨key, entry, .whole n⟩ ∨
        ∃ line ∈ inventory, ∃ held, line.amount = .whole held ∧
          next = inventory.put { line with amount := .whole (held + n) }) := by
  by_cases hn : n ≤ 0
  · rw [add_of_nonpos inventory entry hn] at h
    cases h
    exact .inl rfl
  · have hpos : 0 < n := Int.not_le.1 hn
    obtain ⟨key, hkey, -⟩ := bind_eq_ok.1 ((add_of_pos inventory entry hpos).symm.trans h)
    refine .inr ⟨hpos, key, hkey, ?_⟩
    cases hfind : inventory.find? key with
    | none =>
      cases (add_of_find?_eq_none hkey hpos hfind).symm.trans h
      exact .inl ⟨rfl, rfl⟩
    | some line =>
      have hline := (find?_eq_some_iff.1 hfind).1
      obtain ⟨held, hheld⟩ := hcounted line hline
      cases (add_of_find?_eq_some hkey hpos hfind hheld).symm.trans h
      exact .inr ⟨line, hline, held, hheld, rfl⟩

/-- What was taken away was held in the line under the entry's key. -/
theorem exists_leaving_of_remove (hcounted : inventory.Counted)
    (h : inventory.remove entry (.whole n) = .ok next) :
    ∃ line ∈ inventory, ∃ held, line.amount = .whole held ∧ 0 < n ∧ n ≤ held ∧
      next = inventory.leaving line (held - n) := by
  obtain ⟨key, hkey, -⟩ := bind_eq_ok.1 h
  obtain ⟨held, hheld⟩ := hcounted.held key
  by_cases hn : n ≤ 0 ∨ held < n
  · obtain ⟨fault, hrefused⟩ := remove_eq_error hkey hheld hn
    rw [hrefused] at h
    cases h
  · obtain ⟨hpos, hle⟩ : 0 < n ∧ n ≤ held := by omega
    obtain ⟨line, hline, hamount, hremove⟩ := remove_eq_ok hkey hheld hpos hle
    cases hremove.symm.trans h
    exact ⟨line, (find?_eq_some_iff.1 hline).1, held, hamount, hpos, hle, rfl⟩

theorem mem_leaving {left : Int} {other : Line} (h : other ∈ inventory.leaving line left) :
    left ≠ 0 ∧ other = { line with amount := .whole left } ∨ other ∈ inventory := by
  unfold leaving at h
  split at h
  · exact .inr (OrderedList.mem_filter.1 h).1
  · rename_i hleft
    exact (OrderedList.mem_put_iff.1 h).imp (⟨hleft, ·⟩) And.left

/-- Of the lines that are listed, the one that something is taken from changes, in its place. -/
theorem toList_leaving (h : line ∈ inventory) (left : Int) :
    (inventory.leaving line left).toList = line.leaving left inventory.toList := by
  have hsame : ∀ other ∈ inventory, (other.order line = .eq ↔ other = line) := fun other hother =>
    ⟨OrderedList.eq_of_mem_of_mem hother h, fun heq => by rw [heq]; exact Std.ReflCmp.compare_self⟩
  unfold leaving Line.leaving
  split
  · refine List.filter_congr fun other hother => ?_
    rw [Bool.eq_iff_iff, bne_iff_ne, decide_eq_true_eq]
    exact not_congr (hsame other hother)
  · have horder : ∀ other ∈ inventory,
        (Line.order { line with amount := .whole left } other = .eq ↔ other = line) :=
      fun other hother => ⟨fun heq => (hsame other hother).1 (OrientedCmp.eq_symm heq),
        fun heq => OrientedCmp.eq_symm ((hsame other hother).2 heq)⟩
    rw [OrderedList.toList_put_of_mem h ((horder line h).2 rfl)]
    refine List.map_congr_left fun other hother => ?_
    simp only [horder other hother]

/-! ## Reachable inventories -/

/-- An inventory that was empty once, and since then whole amounts were added to it and taken away
from it. -/
inductive Arises : Inventory → Prop
  | empty : Arises .empty
  | added {inventory next : Inventory} {entry : Entry} {n : Int} (before : Arises inventory)
      (tradable : entry.Tradable) (add : inventory.add entry (.whole n) = .ok next) : Arises next
  | removed {inventory next : Inventory} {entry : Entry} {n : Int} (before : Arises inventory)
      (remove : inventory.remove entry (.whole n) = .ok next) : Arises next

theorem counted_of_sound (h : ∀ line ∈ inventory, line.Sound) : inventory.Counted :=
  fun line hline => by
    obtain ⟨held, -, hheld⟩ := (h line hline).amount
    exact ⟨held, hheld⟩

theorem sound_of_add (hsound : ∀ line ∈ inventory, line.Sound) (htradable : entry.Tradable)
    (h : inventory.add entry (.whole n) = .ok next) : ∀ line ∈ next, line.Sound := by
  rcases add_cases (counted_of_sound hsound) h with
    rfl | ⟨hpos, key, hkey, ⟨-, rfl⟩ | ⟨old, hold, held, hheld, rfl⟩⟩
  · exact hsound
  · intro line hline
    rcases OrderedList.mem_put_iff.1 hline with rfl | ⟨hline, -⟩
    · exact ⟨htradable, hkey, n, hpos, rfl⟩
    · exact hsound line hline
  · intro line hline
    rcases OrderedList.mem_put_iff.1 hline with rfl | ⟨hline, -⟩
    · obtain ⟨htradable, hkey, before, hbefore, hamount⟩ := hsound old hold
      cases hamount.symm.trans hheld
      exact ⟨htradable, hkey, _, by omega, rfl⟩
    · exact hsound line hline

theorem sound_of_remove (hsound : ∀ line ∈ inventory, line.Sound)
    (h : inventory.remove entry (.whole n) = .ok next) : ∀ line ∈ next, line.Sound := by
  obtain ⟨old, hold, held, -, -, hle, rfl⟩ :=
    exists_leaving_of_remove (counted_of_sound hsound) h
  intro line hline
  rcases mem_leaving hline with ⟨hleft, rfl⟩ | hline
  · exact ⟨(hsound old hold).tradable, (hsound old hold).key, _, by omega, rfl⟩
  · exact hsound line hline

theorem Arises.sound (h : inventory.Arises) : ∀ line ∈ inventory, line.Sound := by
  induction h with
  | empty => exact fun line hline => absurd hline (OrderedList.not_mem_empty line)
  | added _ htradable hadd ih => exact sound_of_add ih htradable hadd
  | removed _ hremove ih => exact sound_of_remove ih hremove

/-- Lines whose ids are whole numbers can be listed. -/
theorem lines_eq_of_ids (h : ∀ line ∈ inventory, ∃ n, line.key.id = .int n) :
    inventory.lines = .ok inventory.toList := by
  unfold lines
  refine if_pos (List.all_eq_true.2 fun kind _ => ?_)
  have hnumbers : ((inventory.toList.filter fun line => line.key.kind = kind).map
      (·.key.id)).all Scalar.isNumber = true := by
    rw [List.all_map, List.all_eq_true]
    intro line hline
    obtain ⟨n, hid⟩ := h line (List.mem_filter.1 hline).1
    rw [Function.comp_apply, hid]
    rfl
  simp only [Scalar.sortable, hnumbers, Bool.or_true, Bool.true_or]

theorem Arises.lines_eq (h : inventory.Arises) : inventory.lines = .ok inventory.toList :=
  lines_eq_of_ids fun line hline => (h.sound line hline).exists_id

end Inventory
end SellRules
