import SellRules.Proofs.Party.Inventory
import SellRules.Proofs.Restriction.Lookup
import SellRules.Proofs.Shop.Stage

/-!
# Sales

A sale is all or nothing. Either the shop declines it (`Shop.Declines`), or the party does not hold
enough, and then the party is as it was; or what is sold leaves its line in the inventory and the
party is paid for it (`Party.Sold`). A price above zero and an amount above zero make a payment that
is never negative, so the payment cannot fail once the goods are gone.
-/

set_option autoImplicit false

namespace SellRules

/-! ## Whether the shop wants an entry -/

/-- An entry with a price above zero can be sold if the shop buys it. -/
theorem SellList.isEnabled_eq {list : SellList} {entry : Entry} {price : Int} {b : Bool}
    (hprice : entry.price = .int price) (hbuys : list.buys entry = .ok b) :
    list.isEnabled entry = .ok (decide (0 < price) && b) := by
  simp only [isEnabled, isPriced, hprice, Amount.ofValue_int, Amount.zero_eq, ok_bind]
  simp only [pure, Except.pure, ok_bind, Amount.isLess_whole, hbuys, decide_eq_true_eq]
  by_cases h : 0 < price <;> simp [h]

namespace Shop

/-- The reasons for which a shop turns an entry with a price down. -/
def Declines (shop : Shop) (entry : Entry) (price : Int) : Prop :=
  shop.sellList = none ∨ shop.purchaseOnly.truthy = true ∨ price ≤ 0 ∨
    RestrictionSet.buys shop.restrictions entry = .ok false

/-- The shop with another category chosen, if it is open. -/
def inCategory (category : Option Category) (shop : Shop) : Shop :=
  { shop with sellList := shop.sellList.map fun list => { list with category } }

variable {shop : Shop} {entry : Entry} {price : Int}

theorem isEnabled_eq_of_arises (hshop : shop.Arises) (hentry : entry.Fit)
    (hprice : entry.price = .int price) {list : SellList} (hlist : shop.sellList = some list) :
    ∃ b, RestrictionSet.buys shop.restrictions entry = .ok b ∧
      list.isEnabled entry = .ok (decide (0 < price) && b) := by
  obtain ⟨b, hb⟩ := RestrictionSet.exists_buys shop.restrictions hentry
  refine ⟨b, hb, SellList.isEnabled_eq hprice ?_⟩
  rw [SellList.buys, hshop.restrictions_eq list hlist, hb]

theorem consider_of_declines (hshop : shop.Arises) (hentry : entry.Fit)
    (hprice : entry.price = .int price) (h : shop.Declines entry price) :
    ∃ reason, shop.consider entry = .error (.rejected reason) := by
  cases hlist : shop.sellList with
  | none =>
    refine ⟨.closed, ?_⟩
    simp only [consider, hlist]
    rfl
  | some list =>
    obtain ⟨b, hb, henabled⟩ := isEnabled_eq_of_arises hshop hentry hprice hlist
    by_cases honly : shop.purchaseOnly.truthy = true
    · refine ⟨.purchaseOnly, ?_⟩
      simp only [consider, hlist, honly, ↓reduceIte]
      rfl
    · refine ⟨.notBought entry.name, ?_⟩
      have hno : (decide (0 < price) && b) = false := by
        rcases h with h | h | h | h
        · simp [h] at hlist
        · exact absurd h honly
        · simp [Int.not_lt.2 h]
        · rw [hb] at h
          cases h
          simp
      have hshown : [entry.name].all Value.isShown = true := by
        rw [List.all_cons, hentry.name]
        rfl
      simp only [consider, hlist, honly, henabled, hno, Failure.showing_of_isShown hshown]
      rfl

theorem consider_of_not_declines (hshop : shop.Arises) (hentry : entry.Fit)
    (hprice : entry.price = .int price) (h : ¬ shop.Declines entry price) :
    shop.consider entry = .ok () := by
  simp only [Declines, not_or] at h
  obtain ⟨hopen, honly, hpositive, hbuys⟩ := h
  cases hlist : shop.sellList with
  | none => exact absurd hlist hopen
  | some list =>
    obtain ⟨b, hb, henabled⟩ := isEnabled_eq_of_arises hshop hentry hprice hlist
    have hyes : (decide (0 < price) && b) = true := by
      cases b with
      | false => exact absurd hb hbuys
      | true => simpa using hpositive
    simp only [consider, hlist, honly, henabled, hyes]
    rfl

/-! ## What a sale leaves -/

/-- What is paid at half a price above zero is not negative. -/
theorem payment_nonneg {n : Int} (hprice : 0 < price) (hn : 0 < n) : 0 ≤ price.fdiv 2 * n :=
  Int.mul_nonneg (Int.fdiv_nonneg (by omega) (by decide)) (by omega)

theorem perform_sell_of_consider_error {f : Failure} (h : shop.consider entry = .error f)
    (quantity : Value) (party : Party) :
    (shop.sell entry quantity).perform party = (.error f, party) := by
  simp only [sell, h, Action.perform_bind, Action.perform_ofExcept]

theorem perform_sell_of_remove_error {n : Int} {f : Failure} {party : Party}
    (h : shop.consider entry = .ok ())
    (hremove : party.inventory.remove entry (.whole n) = .error f) :
    (shop.sell entry (.int n)).perform party = (.error f, party) := by
  simp only [sell, h, Amount.ofValue_int, Action.perform_bind, Action.perform_ofExcept,
    Party.perform_remove_error hremove]

/-- What was taken is paid for. -/
theorem perform_sell_of_remove_ok {n gold : Int} {party : Party} {inventory : Inventory}
    (h : shop.consider entry = .ok ()) (hprice : entry.price = .int price)
    (hremove : party.inventory.remove entry (.whole n) = .ok inventory)
    (hgold : party.gold = .int gold) (hpaid : 0 ≤ price.fdiv 2 * n) :
    (shop.sell entry (.int n)).perform party =
      (.ok (.whole (price.fdiv 2 * n)),
        { party with inventory, gold := .int (gold + price.fdiv 2 * n) }) := by
  have hpayment : payment entry (.whole n) = .ok (.whole (price.fdiv 2 * n)) := by
    simp only [payment, sellingPrice, hprice, Amount.ofValue_int, ok_bind]
    rfl
  have hnegative : ¬ price.fdiv 2 * n < 0 := by omega
  simp only [sell, Party.perform_remove_ok hremove, Party.gainGold, h, hpayment, hgold, hnegative,
    Amount.ofValue_int, Amount.add_whole, Amount.zero_eq, Amount.isLess_whole, Amount.toValue,
    Action.perform_bind, Action.perform_ofExcept, Action.perform_get, Action.perform_set,
    Action.perform_pure, decide_false, Bool.false_eq_true, ↓reduceIte]

end Shop

/-- The party after `n` of the `held` under a key were sold for `paid`. -/
structure Party.Sold (party next : Party) (key : Key) (held gold n paid : Int) : Prop where
  amount : next.inventory.held key = .whole (held - n)
  /-- The line goes exactly when nothing is left of it. -/
  gone : next.inventory.find? key = none ↔ n = held
  /-- What is left is the same line with less in it. -/
  left : ∀ line, next.inventory.find? key = some line →
    ∃ old, party.inventory.find? key = some old ∧ line = { old with amount := line.amount }
  others : ∀ other : Key, other.order key ≠ .eq →
    next.inventory.find? other = party.inventory.find? other
  gold : next.gold = .int (gold + paid)
  inBattle : next.inBattle = party.inBattle

theorem Party.sold_of_leaving {party : Party} {key : Key} {line : Line} {held gold n paid : Int}
    (hline : party.inventory.find? key = some line) :
    party.Sold { party with
      inventory := party.inventory.leaving line (held - n), gold := .int (gold + paid) }
      key held gold n paid := by
  have hkey : key.order line.key = .eq := (Inventory.find?_eq_some_iff.1 hline).2
  have hfind := Inventory.find?_leaving party.inventory line (held - n)
  have hself := hfind key
  rw [if_pos hkey] at hself
  refine ⟨?_, ?_, ?_, fun other hother => ?_, rfl, rfl⟩
  · rw [Inventory.held, hself]
    split
    next h => rw [h]; rfl
    next => rfl
  · rw [hself]
    split
    · simp
      omega
    · simp
      omega
  · intro found hfound
    rw [hself] at hfound
    split at hfound <;> cases hfound
    exact ⟨line, hline, rfl⟩
  · have hne : other.order line.key ≠ .eq := fun h =>
      hother (Std.TransCmp.eq_trans h (Std.OrientedCmp.eq_symm hkey))
    rw [hfind, if_neg hne]

namespace Shop

variable {shop : Shop} {entry : Entry} {party : Party} {key : Key} {price held gold n : Int}

theorem perform_sell_short (hconsider : shop.consider entry = .ok ()) (hkey : entry.key = .ok key)
    (hheld : party.inventory.held key = .whole held) (hn : n ≤ 0 ∨ held < n) :
    ∃ fault, (shop.sell entry (.int n)).perform party = (.error (.value fault), party) := by
  obtain ⟨fault, hremove⟩ := Inventory.remove_eq_error hkey hheld hn
  exact ⟨fault, perform_sell_of_remove_error hconsider hremove⟩

theorem perform_sell_sold (hconsider : shop.consider entry = .ok ()) (hkey : entry.key = .ok key)
    (hprice : entry.price = .int price) (hpositive : 0 < price)
    (hheld : party.inventory.held key = .whole held) (hgold : party.gold = .int gold)
    (hpos : 0 < n) (hle : n ≤ held) :
    0 ≤ price.fdiv 2 * n ∧ ∃ next,
      (shop.sell entry (.int n)).perform party = (.ok (.whole (price.fdiv 2 * n)), next) ∧
      party.Sold next key held gold n (price.fdiv 2 * n) := by
  have hpaid := payment_nonneg hpositive hpos
  obtain ⟨line, hline, -, hremove⟩ := Inventory.remove_eq_ok hkey hheld hpos hle
  exact ⟨hpaid, _, perform_sell_of_remove_ok hconsider hprice hremove hgold hpaid,
    Party.sold_of_leaving hline⟩

/-- Whether a sale is wanted does not depend on the category. -/
theorem sell_inCategory (category : Option Category) (shop : Shop) (entry : Entry)
    (quantity : Value) :
    (shop.inCategory category).sell entry quantity = shop.sell entry quantity := by
  obtain ⟨goods, purchaseOnly, restrictions, logChecks, sellList⟩ := shop
  cases sellList <;> rfl

/-- **Selling is all or nothing and exact.** A sale is rejected exactly when the shop declines it; a
sale that is not declined is refused for its amount exactly when that is not above zero or not held;
every other sale succeeds. A sale that fails leaves the party as it was. One that succeeds pays half
the price, rounded down, for each piece, takes exactly what was sold from its line and changes
nothing else. The category plays no role. -/
theorem sale_is_all_or_nothing (n : Int) (hshop : shop.Arises) (hentry : entry.Fit)
    (hprice : entry.price = .int price) (hamounts : party.inventory.Counted)
    (hgold : party.gold = .int gold) :
    ∃ key held paid answer next, entry.key = .ok key ∧
      party.inventory.held key = .whole held ∧ paid = price.fdiv 2 * n ∧
      (shop.sell entry (.int n)).perform party = (answer, next) ∧
      ((∃ reason, answer = .error (.rejected reason)) ↔ shop.Declines entry price) ∧
      (¬ shop.Declines entry price →
        ((∃ fault, answer = .error (.value fault)) ↔ n ≤ 0 ∨ held < n) ∧
        (answer = .ok (.whole paid) ↔ 0 < n ∧ n ≤ held)) ∧
      (∀ failure, answer = .error failure → next = party) ∧
      (∀ gain, answer = .ok gain →
        gain = .whole paid ∧ 0 ≤ paid ∧ party.Sold next key held gold n paid) ∧
      ∀ category, (shop.inCategory category).sell entry (.int n) = shop.sell entry (.int n) := by
  obtain ⟨key, hkey⟩ := hentry.key
  obtain ⟨held, hheld⟩ := hamounts.held key
  refine ⟨key, held, price.fdiv 2 * n, ((shop.sell entry (.int n)).perform party).1,
    ((shop.sell entry (.int n)).perform party).2, hkey, hheld, rfl, rfl, ?_⟩
  simp only [sell_inCategory, implies_true, and_true]
  by_cases hdeclines : shop.Declines entry price
  · obtain ⟨reason, hconsider⟩ := consider_of_declines hshop hentry hprice hdeclines
    rw [perform_sell_of_consider_error hconsider]
    simp [hdeclines]
  · have hconsider := consider_of_not_declines hshop hentry hprice hdeclines
    by_cases hamount : n ≤ 0 ∨ held < n
    · obtain ⟨fault, hsell⟩ := perform_sell_short hconsider hkey hheld hamount
      rw [hsell]
      simp [hdeclines]
      omega
    · have hpositive : 0 < price := by
        simp only [Declines, not_or] at hdeclines
        omega
      obtain ⟨hpos, hle⟩ : 0 < n ∧ n ≤ held := by omega
      obtain ⟨hpaid, next, hsell, hsold⟩ :=
        perform_sell_sold hconsider hkey hprice hpositive hheld hgold hpos hle
      rw [hsell]
      simp [hdeclines, hpaid, hsold]
      omega

/-- A potion of normal type with an odd price. -/
def potion : Entry where
  id := .int 1
  name := .text "potion"
  kind := .item
  price := .int 5
  itemTypeId := .int 1

/-- A party with three potions. -/
def potionParty : Party where
  inventory := .ofList [⟨⟨.item, .int 1⟩, potion, .whole 3⟩]
  gold := .int 10

/-- A shop that buys normal items. -/
def potionShop : Shop where
  goods := []
  restrictions := some (.ofRules [(.itemTypeIds, .int 1)])

/-- The shop was opened, and the weapons were chosen. -/
def openPotionShop : Shop := potionShop.entered.inCategory (some .weapon)

theorem arises_openPotionShop : openPotionShop.Arises := by
  have hmade : potionShop.Arises := .made rfl
  exact .moved (.entered hmade (by decide +kernel)) rfl (some .weapon)

theorem fit_potion : potion.Fit where
  key := ⟨_, rfl⟩
  types := by simp [Entry.typeIds, potion, Value.hasParts]
  markers := ⟨_, rfl⟩
  name := rfl

/-- All three potions are sold for two coins each; a fourth is not there. -/
theorem all_potions_are_sold :
    (∃ next, (openPotionShop.sell potion (.int 3)).perform potionParty = (.ok (.whole 6), next) ∧
      potionParty.Sold next ⟨.item, .int 1⟩ 3 10 3 6) ∧
    ∃ fault, (openPotionShop.sell potion (.int 4)).perform potionParty =
      (.error (.value fault), potionParty) := by
  have hcounted : potionParty.inventory.Counted := by
    intro line hline
    rw [List.mem_singleton.1 hline]
    exact ⟨3, rfl⟩
  have hthree : potionParty.inventory.held ⟨.item, .int 1⟩ = .whole 3 := by decide +kernel
  have hwanted : ¬ openPotionShop.Declines potion 5 := by
    rintro (h | h | h | h)
    · cases h
    · cases h
    · omega
    · exact absurd h (by decide +kernel)
  constructor
  · obtain ⟨key, held, paid, answer, next, hkey, hheld, rfl, hsell, -, hanswer, -, hsold, -⟩ :=
      sale_is_all_or_nothing 3 arises_openPotionShop fit_potion rfl hcounted rfl
    cases hkey
    cases hthree.symm.trans hheld
    obtain rfl := (hanswer hwanted).2.2 (by decide)
    exact ⟨next, hsell, (hsold _ rfl).2.2⟩
  · obtain ⟨key, held, paid, answer, next, hkey, hheld, rfl, hsell, -, hanswer, hfailed, -⟩ :=
      sale_is_all_or_nothing 4 arises_openPotionShop fit_potion rfl hcounted rfl
    cases hkey
    cases hthree.symm.trans hheld
    obtain ⟨fault, rfl⟩ := (hanswer hwanted).1.2 (by decide)
    exact ⟨fault, by rw [hsell, hfailed _ rfl]⟩

end Shop
end SellRules
