import SellRules.Proofs.Shop.Sale

/-!
# Accounts

What a party has: whole gold, and under each key a whole amount that is never negative
(`Party.Has`). An action of trade *settles* (`Party.Settles`): either it fails and the party is as it
was, or it posts its income to the gold and its change to the stock, so that the books balance after
it. Giving gold, adding, taking away and selling all settle.
-/

set_option autoImplicit false

namespace SellRules

open Std (TransCmp OrientedCmp)

/-- How much an amount of an entry is under a key: all of it under the entry's own, else nothing. -/
def Entry.portion (entry : Entry) (n : Int) (key : Key) : Int :=
  match entry.key with
  | .ok own => if key.order own = .eq then n else 0
  | .error _ => 0

theorem Entry.portion_of_key {entry : Entry} {own : Key} (h : entry.key = .ok own) (n : Int)
    (key : Key) : entry.portion n key = if key.order own = .eq then n else 0 := by
  rw [portion, h]

@[simp] theorem Entry.portion_zero (entry : Entry) (key : Key) : entry.portion 0 key = 0 := by
  rw [portion]
  split
  · rw [ite_self]
  · rfl

theorem Entry.portion_neg (entry : Entry) (n : Int) (key : Key) :
    entry.portion (-n) key = -entry.portion n key := by
  simp only [portion]
  split
  · split
    · rfl
    · rfl
  · rfl

namespace Inventory

variable {inventory : Inventory} {key : Key}

/-- Equal keys hold the same. -/
theorem held_congr (inventory : Inventory) {other : Key} (h : other.order key = .eq) :
    inventory.held other = inventory.held key := by
  rw [Inventory.held, Inventory.held, find?_congr inventory h]

theorem held_put (inventory : Inventory) (line : Line) (other : Key) :
    Inventory.held (inventory.put line) other =
      if other.order line.key = .eq then line.amount else inventory.held other := by
  rw [Inventory.held, find?_put]
  split
  · rfl
  · rfl

theorem held_leaving (inventory : Inventory) (line : Line) (left : Int) (other : Key) :
    (inventory.leaving line left).held other =
      if other.order line.key = .eq then .whole left else inventory.held other := by
  rw [Inventory.held, find?_leaving]
  by_cases hkey : other.order line.key = .eq
  · rw [if_pos hkey, if_pos hkey]
    by_cases hleft : left = 0
    · rw [if_pos hleft, hleft]
      rfl
    · rw [if_neg hleft]
      rfl
  · rw [if_neg hkey, if_neg hkey]
    rfl

variable {entry : Entry} {held n : Int}

/-- An amount above zero is added under the entry's key, whether or not a line is there. -/
theorem add_eq_ok (hkey : entry.key = .ok key) (hheld : inventory.held key = .whole held)
    (hpos : 0 < n) :
    ∃ next, inventory.add entry (.whole n) = .ok next ∧ ∀ other, next.held other =
      if other.order key = .eq then .whole (held + n) else inventory.held other := by
  cases hfind : inventory.find? key with
  | none =>
    have hzero : held = 0 := by
      rw [Inventory.held, hfind] at hheld
      cases hheld
      rfl
    refine ⟨_, add_of_find?_eq_none hkey hpos hfind, fun other => ?_⟩
    rw [held_put, hzero, Int.zero_add]
  | some line =>
    have hline : key.order line.key = .eq := (find?_eq_some_iff.1 hfind).2
    have hamount : line.amount = .whole held := by
      rw [Inventory.held, hfind] at hheld
      exact hheld
    refine ⟨_, add_of_find?_eq_some hkey hpos hfind hamount, fun other => ?_⟩
    rw [held_put, TransCmp.congr_right (OrientedCmp.eq_symm hline)]

/-- What is taken from the entry's key is missing under it, and nowhere else. -/
theorem held_of_remove (hkey : entry.key = .ok key) (hheld : inventory.held key = .whole held)
    (hpos : 0 < n) (hle : n ≤ held) :
    ∃ next, inventory.remove entry (.whole n) = .ok next ∧ ∀ other, next.held other =
      if other.order key = .eq then .whole (held - n) else inventory.held other := by
  obtain ⟨line, hline, -, hremove⟩ := remove_eq_ok hkey hheld hpos hle
  have hsame : key.order line.key = .eq := (find?_eq_some_iff.1 hline).2
  refine ⟨inventory.leaving line (held - n), hremove, fun other => ?_⟩
  rw [held_leaving, TransCmp.congr_right (OrientedCmp.eq_symm hsame)]

end Inventory

namespace Party

variable {α : Type}

/-- What a party has: an amount of gold, and under each key an amount that is not negative. -/
structure Has (gold : Int) (stock : Key → Int) (party : Party) : Prop where
  gold : party.gold = .int gold
  held : ∀ key, party.inventory.held key = .whole (stock key)
  nonneg : ∀ key, 0 ≤ stock key

/-- An action that fails without changing anything, or posts an income that is not negative and a
change of the stock. -/
def Settles (a : Action Party α) (income : α → Int) (change : Key → Int) : Prop :=
  ∀ gold stock party, party.Has gold stock →
    (∃ f, a.perform party = (.error f, party)) ∨
    ∃ answer next, a.perform party = (.ok answer, next) ∧ 0 ≤ income answer ∧
      next.Has (gold + income answer) fun key => stock key + change key

variable {gold : Int} {stock : Key → Int} {party : Party} {entry : Entry} {key : Key} {n : Int}

theorem Has.congr {stock' : Key → Int} (h : party.Has gold stock)
    (hstock : ∀ key, stock key = stock' key) : party.Has gold stock' := by
  rwa [← funext hstock]

/-- A party whose inventory changed by an amount under one key. -/
theorem Has.shift {inventory : Inventory} (h : party.Has gold stock) (hkey : entry.key = .ok key)
    (hheld : ∀ other, inventory.held other =
      if other.order key = .eq then .whole (stock key + n) else party.inventory.held other)
    (hleft : 0 ≤ stock key + n) :
    { party with inventory }.Has gold fun other => stock other + entry.portion n other := by
  have hsame (other : Key) (hother : other.order key = .eq) : stock other = stock key := by
    have hcongr := party.inventory.held_congr hother
    rw [h.held, h.held] at hcongr
    exact Amount.whole.inj hcongr
  refine ⟨h.gold, fun other => ?_, fun other => ?_⟩
  · show inventory.held other = _
    rw [hheld, Entry.portion_of_key hkey]
    by_cases hother : other.order key = .eq
    · rw [if_pos hother, if_pos hother, hsame other hother]
    · rw [if_neg hother, if_neg hother, Int.add_zero, h.held]
  · rw [Entry.portion_of_key hkey]
    by_cases hother : other.order key = .eq
    · rw [if_pos hother, hsame other hother]
      exact hleft
    · rw [if_neg hother, Int.add_zero]
      exact h.nonneg other

theorem settles_gainGold (n : Int) : Settles (gainGold (.whole n)) (fun _ => n) fun _ => 0 := by
  intro gold stock party h
  by_cases hn : n < 0
  · refine .inl ⟨.value .negativeAmount, ?_⟩
    simp only [gainGold, Amount.zero_eq, Amount.isLess_whole, hn, decide_true, ↓reduceIte]
    rfl
  · refine .inr ⟨(), { party with gold := .int (gold + n) }, ?_, Int.not_lt.1 hn, rfl, ?_, ?_⟩
    · simp only [gainGold, Amount.zero_eq, Amount.isLess_whole, hn, decide_false,
        Bool.false_eq_true, ↓reduceIte, h.gold, Action.perform_bind, Action.perform_get,
        Action.perform_ofExcept, Amount.ofValue_int, Amount.add_whole, Action.perform_set,
        Amount.toValue]
    · intro key
      rw [Int.add_zero]
      exact h.held key
    · intro key
      rw [Int.add_zero]
      exact h.nonneg key

/-- An amount of zero or less adds nothing, and the portion that is added is the rest of it above
zero. -/
theorem settles_add (entry : Entry) (n : Int) :
    Settles (Party.add entry (.whole n)) (fun _ => 0) (entry.portion (max n 0)) := by
  intro gold stock party h
  by_cases hn : n ≤ 0
  · refine .inr ⟨(), party, perform_add_ok (Inventory.add_of_nonpos party.inventory entry hn),
      Int.le_refl 0, ?_⟩
    rw [Int.add_zero, Int.max_eq_right hn]
    exact h.congr fun key => by rw [Entry.portion_zero, Int.add_zero]
  · have hpos : 0 < n := Int.not_le.1 hn
    cases hkey : entry.key with
    | error f =>
      have hadd : party.inventory.add entry (.whole n) = .error f := by
        rw [Inventory.add_of_pos party.inventory entry hpos, hkey]
        rfl
      exact .inl ⟨f, perform_add_error hadd⟩
    | ok key =>
      obtain ⟨inventory, hadd, hheld⟩ := Inventory.add_eq_ok hkey (h.held key) hpos
      refine .inr ⟨(), { party with inventory }, perform_add_ok hadd, Int.le_refl 0, ?_⟩
      have hnonneg := h.nonneg key
      rw [Int.add_zero, Int.max_eq_left (by omega)]
      exact h.shift hkey hheld (by omega)

/-- Taking away fails, or what is taken is above zero and held. -/
theorem remove_cases (h : party.Has gold stock) (entry : Entry) (n : Int) :
    (∃ f, party.inventory.remove entry (.whole n) = .error f) ∨
      0 < n ∧ ∃ inventory, party.inventory.remove entry (.whole n) = .ok inventory ∧
        { party with inventory }.Has gold fun key => stock key + entry.portion (-n) key := by
  cases hkey : entry.key with
  | error f =>
    refine .inl ⟨f, ?_⟩
    simp only [Inventory.remove, hkey]
    rfl
  | ok key =>
    by_cases hrefused : n ≤ 0 ∨ stock key < n
    · obtain ⟨fault, hremove⟩ := Inventory.remove_eq_error hkey (h.held key) hrefused
      exact .inl ⟨_, hremove⟩
    · obtain ⟨hpos, hle⟩ : 0 < n ∧ n ≤ stock key := by omega
      obtain ⟨inventory, hremove, hheld⟩ := Inventory.held_of_remove hkey (h.held key) hpos hle
      exact .inr ⟨hpos, inventory, hremove, h.shift hkey hheld (by omega)⟩

theorem settles_remove (entry : Entry) (n : Int) :
    Settles (Party.remove entry (.whole n)) (fun _ => 0) (entry.portion (-n)) := by
  intro gold stock party h
  rcases remove_cases h entry n with ⟨f, hremove⟩ | ⟨-, inventory, hremove, hnext⟩
  · exact .inl ⟨f, perform_remove_error hremove⟩
  · refine .inr ⟨(), { party with inventory }, perform_remove_ok hremove, Int.le_refl 0, ?_⟩
    rw [Int.add_zero]
    exact hnext

end Party

namespace Shop

/-- A shop only wants what has a price above zero. -/
theorem pos_of_consider {shop : Shop} {entry : Entry} {price : Int}
    (hprice : entry.price = .int price) (h : shop.consider entry = .ok ()) : 0 < price := by
  by_contra hnot
  unfold consider at h
  cases hlist : shop.sellList with
  | none =>
    rw [hlist] at h
    cases h
  | some list =>
    have hdisabled : list.isEnabled entry = .ok false := by
      simp only [SellList.isEnabled, SellList.isPriced, hprice, Amount.ofValue_int, ok_bind,
        Amount.zero_eq, Amount.isLess_whole, hnot, decide_false]
      rfl
    simp only [hlist, hdisabled] at h
    split at h
    · cases h
    · cases h

/-- A sale that fails leaves the party as it was; one that succeeds pays what it answers and takes
what was sold, so that the goods never go without the gold. -/
theorem settles_sell (shop : Shop) {entry : Entry} {price : Int} (hprice : entry.price = .int price)
    (n : Int) :
    Party.Settles (shop.sell entry (.int n)) (fun paid => paid.whole?.getD 0)
      (entry.portion (-n)) := by
  intro gold stock party h
  cases hconsider : shop.consider entry with
  | error f => exact .inl ⟨f, perform_sell_of_consider_error hconsider _ party⟩
  | ok =>
    rcases Party.remove_cases h entry n with ⟨f, hremove⟩ | ⟨hpos, inventory, hremove, hnext⟩
    · exact .inl ⟨f, perform_sell_of_remove_error hconsider hremove⟩
    · have hpaid := payment_nonneg (pos_of_consider hprice hconsider) hpos
      have hsell := perform_sell_of_remove_ok hconsider hprice hremove h.gold hpaid
      exact .inr ⟨_, _, hsell, hpaid, rfl, hnext.held, hnext.nonneg⟩

end Shop
end SellRules
