import SellRules.Party.Inventory
import SellRules.Proofs.OrderedList
import SellRules.Proofs.Outcome

/-!
# Adding to an inventory and taking from it

An inventory is known by the line under each key (`Inventory.find?`). Adding some of an entry makes
the line under its key or adds to it (`Inventory.add_of_find?_eq_none`,
`Inventory.add_of_find?_eq_some`). Taking some away changes the line under the key alone: what is
left of it stays (`Inventory.leaving`), and the line goes when nothing is left.
`Inventory.remove_eq_error` and `Inventory.remove_eq_ok` say when taking fails and what it leaves.
-/

set_option autoImplicit false

namespace SellRules

open Std (TransCmp OrientedCmp)

theorem Line.order_eq (a b : Line) : a.order b = a.key.order b.key := rfl

namespace Inventory

variable {inventory : Inventory} {key : Key} {line : Line}

/-! ## Lines by key -/

theorem find?_eq_some_iff :
    inventory.find? key = some line ↔ line ∈ inventory ∧ key.order line.key = .eq :=
  OrderedList.find?_eq_some_iff Line.key Line.order_eq

theorem find?_eq_none_iff :
    inventory.find? key = none ↔ ∀ line ∈ inventory, key.order line.key ≠ .eq := by
  simp only [find?, List.find?_eq_none, beq_iff_eq]
  rfl

/-- Equal keys have the same line. -/
theorem find?_congr (inventory : Inventory) {other : Key} (h : other.order key = .eq) :
    inventory.find? other = inventory.find? key := by
  have hlines : (fun line : Line => other.order line.key == .eq) =
      fun line => key.order line.key == .eq := by
    funext line
    rw [TransCmp.congr_left h]
  simp only [find?, hlines]

/-- An inventory is known by the line under each key. -/
theorem ext_find? {other : Inventory} (h : ∀ key, inventory.find? key = other.find? key) :
    inventory = other := by
  refine OrderedList.ext_mem fun line => ?_
  have hself : line.key.order line.key = .eq := Std.ReflCmp.compare_self
  have hfound (held : Inventory) : line ∈ held ↔ held.find? line.key = some line :=
    ⟨fun hline => find?_eq_some_iff.2 ⟨hline, hself⟩, fun hline => (find?_eq_some_iff.1 hline).1⟩
  rw [hfound inventory, hfound other, h]

/-- A line that is put stands under its key; no other key is concerned. -/
theorem find?_put (inventory : Inventory) (line : Line) (key : Key) :
    find? (inventory.put line) key =
      if key.order line.key = .eq then some line else inventory.find? key :=
  OrderedList.find?_put Line.key Line.order_eq inventory line key

/-- Without a line nothing stands under its key; no other key is concerned. -/
theorem find?_without (inventory : Inventory) (line : Line) (key : Key) :
    find? (inventory.filter fun other => other.order line != .eq) key =
      if key.order line.key = .eq then none else inventory.find? key := by
  split <;> rename_i hkey
  · refine find?_eq_none_iff.2 fun other hother heq => ?_
    obtain ⟨-, hne⟩ := OrderedList.mem_filter.1 hother
    simp only [bne_iff_ne] at hne
    have hother : other.key.order key = .eq := OrientedCmp.eq_symm heq
    have hsame : other.key.order line.key = .eq := TransCmp.eq_trans hother hkey
    exact hne hsame
  · ext found
    simp only [find?_eq_some_iff, OrderedList.mem_filter, bne_iff_ne]
    constructor
    · rintro ⟨⟨hmem, -⟩, hfound⟩
      exact ⟨hmem, hfound⟩
    · rintro ⟨hmem, hfound⟩
      exact ⟨⟨hmem, fun heq => hkey (TransCmp.eq_trans hfound heq)⟩, hfound⟩

/-! ## Whole amounts -/

/-- The amounts of all lines are whole numbers. -/
def Counted (inventory : Inventory) : Prop := ∀ line ∈ inventory, ∃ n, line.amount = .whole n

theorem Counted.held (h : inventory.Counted) (key : Key) :
    ∃ n, inventory.held key = .whole n := by
  unfold Inventory.held
  cases hfind : inventory.find? key with
  | none => exact ⟨0, rfl⟩
  | some line =>
    obtain ⟨n, hn⟩ := h line (find?_eq_some_iff.1 hfind).1
    exact ⟨n, hn⟩

theorem held_eq_of_find? (h : inventory.find? key = some line) :
    inventory.held key = line.amount := by
  rw [Inventory.held, h]
  rfl

theorem held_eq_of_mem (hline : line ∈ inventory) : inventory.held line.key = line.amount :=
  held_eq_of_find? (find?_eq_some_iff.2 ⟨hline, Std.ReflCmp.compare_self⟩)

/-- A line of which some is held. -/
theorem exists_line_of_held {held : Int} (h : inventory.held key = .whole held)
    (hpos : 0 < held) : ∃ line, inventory.find? key = some line ∧ line.amount = .whole held := by
  unfold Inventory.held at h
  cases hfind : inventory.find? key with
  | none =>
    rw [hfind] at h
    simp only [Option.map_none, Option.getD_none, Amount.zero_eq, Amount.whole.injEq] at h
    omega
  | some line =>
    rw [hfind] at h
    exact ⟨line, rfl, h⟩

/-! ## Adding -/

section Adding

variable {entry : Entry} {held n : Int}

theorem add_of_nonpos (inventory : Inventory) (entry : Entry) (hn : n ≤ 0) :
    inventory.add entry (.whole n) = .ok inventory := by
  have hnothing : (Amount.whole n).isAtMost 0 = true := by simpa using hn
  exact if_pos hnothing

theorem add_of_pos (inventory : Inventory) (entry : Entry) (hn : 0 < n) :
    inventory.add entry (.whole n) = (do
      let key ← entry.key
      match inventory.find? key with
      | some line => return inventory.put { line with amount := ← line.amount.add (.whole n) }
      | none => return inventory.put ⟨key, entry, .whole n⟩) := by
  have haccepted : ¬ (Amount.whole n).isAtMost 0 = true := by simpa using hn
  exact if_neg haccepted

theorem add_of_find?_eq_none (hkey : entry.key = .ok key) (hn : 0 < n)
    (hfind : inventory.find? key = none) :
    inventory.add entry (.whole n) = .ok (inventory.put ⟨key, entry, .whole n⟩) := by
  simp only [add_of_pos inventory entry hn, hkey, ok_bind, hfind]
  rfl

theorem add_of_find?_eq_some (hkey : entry.key = .ok key) (hn : 0 < n)
    (hfind : inventory.find? key = some line) (hamount : line.amount = .whole held) :
    inventory.add entry (.whole n) =
      .ok (inventory.put { line with amount := .whole (held + n) }) := by
  simp only [add_of_pos inventory entry hn, hkey, ok_bind, hfind, hamount, Amount.add_whole]
  rfl

end Adding

/-! ## Taking away -/

/-- The inventory with `left` in a line, which goes when that is nothing. -/
def leaving (inventory : Inventory) (line : Line) (left : Int) : Inventory :=
  if left = 0 then inventory.filter fun other => other.order line != .eq
  else inventory.put { line with amount := .whole left }

theorem find?_leaving (inventory : Inventory) (line : Line) (left : Int) (other : Key) :
    (inventory.leaving line left).find? other =
      if other.order line.key = .eq then
        if left = 0 then none else some { line with amount := .whole left }
      else inventory.find? other := by
  unfold leaving
  split
  · rw [find?_without]
  · rw [find?_put]

variable {entry : Entry} {held n : Int}

/-- An amount that is not more than zero, or not held, is not taken. -/
theorem remove_eq_error (hkey : entry.key = .ok key) (hheld : inventory.held key = .whole held)
    (hn : n ≤ 0 ∨ held < n) :
    ∃ fault, inventory.remove entry (.whole n) = .error (.value fault) := by
  have hrefused :
      ((Amount.whole n).isAtMost 0 || (inventory.held key).isLess (.whole n)) = true := by
    rw [hheld]
    simpa using hn
  simp only [remove, hkey, ok_bind, hrefused, ↓reduceIte]
  obtain ⟨fault, hfault⟩ := Failure.exists_showing_value _ _
  exact ⟨fault, congrArg Except.error hfault⟩

/-- What is held is taken from its line. -/
theorem remove_eq_ok (hkey : entry.key = .ok key) (hheld : inventory.held key = .whole held)
    (hpos : 0 < n) (hle : n ≤ held) :
    ∃ line, inventory.find? key = some line ∧ line.amount = .whole held ∧
      inventory.remove entry (.whole n) = .ok (inventory.leaving line (held - n)) := by
  obtain ⟨line, hline, hamount⟩ := exists_line_of_held hheld (by omega)
  have haccepted :
      ((Amount.whole n).isAtMost 0 || (inventory.held key).isLess (.whole n)) = false := by
    rw [hheld]
    simp
    omega
  refine ⟨line, hline, hamount, ?_⟩
  simp only [remove, hkey, ok_bind, haccepted, Bool.false_eq_true, ↓reduceIte, hline, hamount,
    Amount.sub_whole, leaving]
  simp only [Amount.zero_eq, Amount.isEqual_whole, decide_eq_true_eq]
  split <;> rfl

end Inventory

/-! ## A party's inventory -/

namespace Party

variable {party : Party} {inventory : Inventory} {entry : Entry} {amount : Amount} {f : Failure}

theorem perform_add_ok (h : party.inventory.add entry amount = .ok inventory) :
    (Party.add entry amount).perform party = (.ok (), { party with inventory }) := by
  simp only [Party.add, Action.perform_bind, Action.perform_get, Action.perform_ofExcept, h,
    Action.perform_set]

theorem perform_add_error (h : party.inventory.add entry amount = .error f) :
    (Party.add entry amount).perform party = (.error f, party) := by
  simp only [Party.add, Action.perform_bind, Action.perform_get, Action.perform_ofExcept, h]

theorem perform_remove_ok (h : party.inventory.remove entry amount = .ok inventory) :
    (Party.remove entry amount).perform party = (.ok (), { party with inventory }) := by
  simp only [Party.remove, Action.perform_bind, Action.perform_get, Action.perform_ofExcept, h,
    Action.perform_set]

theorem perform_remove_error (h : party.inventory.remove entry amount = .error f) :
    (Party.remove entry amount).perform party = (.error f, party) := by
  simp only [Party.remove, Action.perform_bind, Action.perform_get, Action.perform_ofExcept, h]

/-- An addition keeps what it keeps where it succeeds. -/
theorem keeps_add {P : Party → Prop}
    (h : ∀ party inventory, P party → party.inventory.add entry amount = .ok inventory →
      P { party with inventory }) : Action.Keeps P (Party.add entry amount) := by
  intro party hparty
  cases hadd : party.inventory.add entry amount with
  | error f =>
    rw [perform_add_error hadd]
    exact hparty
  | ok inventory =>
    rw [perform_add_ok hadd]
    exact h party inventory hparty hadd

theorem keeps_remove {P : Party → Prop}
    (h : ∀ party inventory, P party → party.inventory.remove entry amount = .ok inventory →
      P { party with inventory }) : Action.Keeps P (Party.remove entry amount) := by
  intro party hparty
  cases hremove : party.inventory.remove entry amount with
  | error f =>
    rw [perform_remove_error hremove]
    exact hparty
  | ok inventory =>
    rw [perform_remove_ok hremove]
    exact h party inventory hparty hremove

end Party
end SellRules
