import SellRules.Proofs.Item.Loading
import SellRules.Proofs.Party.Account
import SellRules.Proofs.Party.Holdings

/-!
# What can be chosen is what is sold

Listing, choosing and selling each look at the category, the price and the restrictions for
themselves. For the inventories that come about they agree: the lists are filters of the lines
(`SellList.items_eq`, `SellList.enabledItems_eq`), a sale from a held line succeeds exactly if its
entry can be sold and so much is held (`Shop.perform_sell_held`), and afterwards the lists differ in
that line alone.
-/

set_option autoImplicit false

namespace SellRules

open Database (wanted buys_eq_wanted)

variable {inventory : Inventory} {entry : Entry} {list : SellList}

namespace SellList

/-- Whether a list shows an entry: it is of the category and the shop buys it. -/
def shows (list : SellList) (entry : Entry) : Bool :=
  list.inCategory entry && wanted list.restrictions entry

/-- Whether an entry can be sold: its price is above zero and the shop buys it. -/
def sells (list : SellList) (entry : Entry) : Bool := decide (list.isEnabled entry = .ok true)

theorem includes_eq_shows (list : SellList) (h : entry.Tradable) :
    list.includes entry = .ok (list.shows entry) := by
  rw [includes, shows, buys, buys_eq_wanted h.describes]
  cases list.inCategory entry <;> rfl

/-- Whether a tradable entry can be sold has an answer, and the shop buys all that can. -/
theorem isEnabled_eq_sells (list : SellList) (h : entry.Tradable) :
    list.isEnabled entry = .ok (list.sells entry) ∧
      (list.sells entry = true → wanted list.restrictions entry = true) := by
  obtain ⟨price, hprice⟩ := h.price
  have henabled := isEnabled_eq hprice (buys_eq_wanted (r := list.restrictions) h.describes)
  have hsells : list.sells entry = (decide (0 < price) && wanted list.restrictions entry) := by
    rw [sells, henabled, Bool.eq_iff_iff, decide_eq_true_eq, Except.ok.injEq]
  rw [henabled, hsells, Bool.and_eq_true]
  exact ⟨rfl, And.right⟩

theorem items_eq (list : SellList) (h : inventory.Arises) :
    list.items inventory = .ok (inventory.toList.filter fun line => list.shows line.entry) := by
  rw [items, h.lines_eq, ok_bind]
  exact filterM_eq_ok_filter fun line hline =>
    list.includes_eq_shows (h.sound line hline).tradable

theorem enabledItems_eq (list : SellList) (h : inventory.Arises) :
    list.enabledItems inventory = .ok ((inventory.toList.filter fun line =>
      list.shows line.entry).filter fun line => list.sells line.entry) := by
  rw [enabledItems, list.items_eq h, ok_bind]
  exact filterM_eq_ok_filter fun line hline =>
    (list.isEnabled_eq_sells (h.sound line (List.mem_filter.1 hline).1).tradable).1

/-- Without a category every held line that can be sold is shown. -/
theorem mem_enabled_iff (h : inventory.Arises) (hcategory : list.category = none) {line : Line}
    (hline : line ∈ inventory) :
    (line ∈ (inventory.toList.filter fun line => list.shows line.entry).filter
      fun line => list.sells line.entry) ↔ list.sells line.entry = true := by
  have hshown : list.sells line.entry = true → list.shows line.entry = true := fun hsells => by
    rw [shows, inCategory, hcategory, Option.all_none, Bool.true_and]
    exact (list.isEnabled_eq_sells (h.sound line hline).tradable).2 hsells
  rw [List.mem_filter, List.mem_filter]
  exact ⟨And.right, fun hsells => ⟨⟨hline, hshown hsells⟩, hsells⟩⟩

end SellList

namespace Shop

variable {shop : Shop} {party : Party} {gold : Int}

theorem consider_eq_ok_iff (hopen : shop.sellList = some list)
    (honly : shop.purchaseOnly.truthy = false) (h : entry.Tradable) :
    shop.consider entry = .ok () ↔ list.sells entry = true := by
  simp only [consider, hopen, honly, (list.isEnabled_eq_sells h).1]
  cases list.sells entry with
  | true => exact ⟨fun _ => rfl, fun _ => rfl⟩
  | false =>
    simp only [Failure.showing]
    constructor <;> intro h
    · split at h <;> cases h
    · cases h

/-- A sale from a held line: it fails without effect, or its entry can be sold and so much is held;
then that is taken from the line. -/
theorem perform_sell_held (hopen : shop.sellList = some list)
    (honly : shop.purchaseOnly.truthy = false) (hinventory : party.inventory.Arises)
    (hgold : party.gold = .int gold) {line : Line} (hline : line ∈ party.inventory) {held : Int}
    (hheld : line.amount = .whole held) (n : Int) :
    (∃ f, (shop.sell line.entry (.int n)).perform party = (.error f, party)) ∧
        ¬ (list.sells line.entry = true ∧ 1 ≤ n ∧ n ≤ held) ∨
      (list.sells line.entry = true ∧ 1 ≤ n ∧ n ≤ held) ∧
        ∃ inventory paid, inventory = party.inventory.leaving line (held - n) ∧
          inventory.Arises ∧ (shop.sell line.entry (.int n)).perform party =
            (.ok (.whole paid), { party with inventory, gold := .int (gold + paid) }) := by
  obtain ⟨htradable, hkey, -⟩ := hinventory.sound line hline
  have hamount : party.inventory.held line.key = .whole held :=
    (Inventory.held_eq_of_mem hline).trans hheld
  by_cases hsells : list.sells line.entry = true
  · have hconsider := (consider_eq_ok_iff hopen honly htradable).2 hsells
    by_cases hn : n ≤ 0 ∨ held < n
    · obtain ⟨fault, hsell⟩ := perform_sell_short hconsider hkey hamount hn
      exact .inl ⟨⟨_, hsell⟩, by omega⟩
    · obtain ⟨hpos, hle⟩ : 0 < n ∧ n ≤ held := by omega
      obtain ⟨price, hprice⟩ := htradable.price
      obtain ⟨found, hfound, -, hremove⟩ := Inventory.remove_eq_ok hkey hamount hpos hle
      obtain ⟨hmem, hsame⟩ := Inventory.find?_eq_some_iff.1 hfound
      obtain rfl : line = found := OrderedList.eq_of_mem_of_mem hline hmem hsame
      exact .inr ⟨⟨hsells, hpos, hle⟩, _, _, rfl, .removed hinventory hremove,
        perform_sell_of_remove_ok hconsider hprice hremove hgold
          (payment_nonneg (pos_of_consider hprice hconsider) hpos)⟩
  · cases hconsider : shop.consider line.entry with
    | ok =>
      exact absurd ((consider_eq_ok_iff hopen honly htradable).1 hconsider) hsells
    | error f =>
      exact .inl ⟨⟨f, perform_sell_of_consider_error hconsider _ party⟩, fun h => hsells h.1⟩

/-- **The shop sells exactly what it shows as selectable.** For an open shop that buys and shows all
categories, and a party with an inventory that came about: both lists can be made, and whatever can
be chosen is listed, in the same order. From a held line an amount is sold exactly if the line can be
chosen and the amount is between one and what is held. After a sale the inventory is again one that
comes about, and both lists are those from before with only that line's amount reduced, or without
the line when all of it was sold. -/
theorem sells_exactly_what_can_be_chosen (hopen : shop.sellList = some list)
    (hcategory : list.category = none) (honly : shop.purchaseOnly.truthy = false)
    (hinventory : party.inventory.Arises) (hgold : party.gold = .int gold) :
    ∃ items enabled, list.items party.inventory = .ok items ∧
      list.enabledItems party.inventory = .ok enabled ∧ enabled.Sublist items ∧
      ∀ line ∈ party.inventory, ∃ held, line.amount = .whole held ∧ ∀ n : Int,
        ((∃ paid next, (shop.sell line.entry (.int n)).perform party = (.ok paid, next)) ↔
          line ∈ enabled ∧ 1 ≤ n ∧ n ≤ held) ∧
        ∀ paid next, (shop.sell line.entry (.int n)).perform party = (.ok paid, next) →
          next.inventory.Arises ∧ (∃ gold, next.gold = .int gold) ∧
          list.items next.inventory = .ok (line.leaving (held - n) items) ∧
          list.enabledItems next.inventory = .ok (line.leaving (held - n) enabled) := by
  refine ⟨_, _, list.items_eq hinventory, list.enabledItems_eq hinventory,
    List.filter_sublist, fun line hline => ?_⟩
  obtain ⟨held, -, hheld⟩ := (hinventory.sound line hline).amount
  refine ⟨held, hheld, fun n => ?_⟩
  rw [SellList.mem_enabled_iff hinventory hcategory hline]
  rcases perform_sell_held hopen honly hinventory hgold hline hheld n with
    ⟨⟨f, hsell⟩, hno⟩ | ⟨hyes, inventory, paid, rfl, hnext, hsell⟩
  · rw [hsell]
    refine ⟨⟨?_, fun h => absurd h hno⟩, ?_⟩
    · rintro ⟨paid, next, h⟩
      cases h
    · intro paid next h
      cases h
  · rw [hsell]
    refine ⟨⟨fun _ => hyes, fun _ => ⟨_, _, rfl⟩⟩, ?_⟩
    intro answer next h
    cases h
    refine ⟨hnext, ⟨_, rfl⟩, ?_, ?_⟩
    · rw [list.items_eq hnext, Inventory.toList_leaving hline, Line.filter_leaving]
    · rw [list.enabledItems_eq hnext, Inventory.toList_leaving hline, Line.filter_leaving,
        Line.filter_leaving]

/-- A sword that the potion shop does not buy. -/
def sword : Entry where
  id := .int 7
  name := .text "sword"
  kind := .weapon
  price := .int 80
  weaponTypeId := .int 2

/-- A party with three potions and a sword. -/
def mixedParty : Party where
  inventory := .ofList [⟨⟨.item, .int 1⟩, potion, .whole 3⟩, ⟨⟨.weapon, .int 7⟩, sword, .whole 1⟩]

theorem tradable_potion : potion.Tradable :=
  ⟨⟨rfl, ⟨1, rfl⟩, by simp [Entry.typeIds, potion, Value.hasParts], ⟨_, rfl⟩⟩, ⟨5, rfl⟩⟩

theorem arises_mixedParty : mixedParty.inventory.Arises := by
  have hsword : sword.Tradable :=
    ⟨⟨rfl, ⟨7, rfl⟩, by simp [Entry.typeIds, sword, Value.hasParts], ⟨_, rfl⟩⟩, ⟨80, rfl⟩⟩
  have hfirst : Inventory.add .empty potion (.whole 3) =
      .ok (.ofList [⟨⟨.item, .int 1⟩, potion, .whole 3⟩]) := by decide +kernel
  have hsecond : Inventory.add (.ofList [⟨⟨.item, .int 1⟩, potion, .whole 3⟩]) sword (.whole 1) =
      .ok mixedParty.inventory := by decide +kernel
  exact .added (.added .empty tradable_potion hfirst) hsword hsecond

/-- Two of three potions are sold, after which one is listed; the sword is not sold. -/
theorem two_potions_are_sold_and_no_sword :
    (∃ paid next, (potionShop.entered.sell potion (.int 2)).perform mixedParty = (.ok paid, next) ∧
      SellList.items { restrictions := potionShop.restrictions } next.inventory =
        .ok [⟨⟨.item, .int 1⟩, potion, .whole 1⟩]) ∧
    ¬ ∃ paid next, (potionShop.entered.sell sword (.int 1)).perform mixedParty =
      (.ok paid, next) := by
  obtain ⟨items, enabled, hitems, henabled, -, hlines⟩ :=
    @sells_exactly_what_can_be_chosen _ potionShop.entered mixedParty _ rfl rfl rfl
      arises_mixedParty rfl
  have hshown : SellList.items { restrictions := potionShop.restrictions } mixedParty.inventory =
      .ok [⟨⟨.item, .int 1⟩, potion, .whole 3⟩] := by decide +kernel
  have hchosen : SellList.enabledItems { restrictions := potionShop.restrictions }
      mixedParty.inventory = .ok [⟨⟨.item, .int 1⟩, potion, .whole 3⟩] := by decide +kernel
  cases hshown.symm.trans hitems
  cases hchosen.symm.trans henabled
  constructor
  · obtain ⟨held, hheld, hsales⟩ :=
      hlines ⟨⟨.item, .int 1⟩, potion, .whole 3⟩ (by simp only [OrderedList.mem_def]; decide +kernel)
    cases hheld
    obtain ⟨hsold, hleft⟩ := hsales 2
    obtain ⟨paid, next, hsell⟩ := hsold.2 ⟨by decide +kernel, by decide, by decide⟩
    exact ⟨paid, next, hsell, (hleft paid next hsell).2.2.1.trans (by decide +kernel)⟩
  · obtain ⟨held, hheld, hsales⟩ :=
      hlines ⟨⟨.weapon, .int 7⟩, sword, .whole 1⟩ (by simp only [OrderedList.mem_def]; decide +kernel)
    exact fun h => absurd ((hsales 1).1.1 h).1 (by decide +kernel)

end Shop
end SellRules
