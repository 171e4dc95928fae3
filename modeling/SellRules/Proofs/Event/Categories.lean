import SellRules.Proofs.Event.Ledger
import SellRules.Proofs.Restriction.Equality
import SellRules.Proofs.Shop.Selectable

/-!
# Categories split the sell list

Under a category an open shop lists a part of what it lists under none. Which entries belong to a
category is read off the entry alone (`Category.includes`), and no entry belongs to two, so the
parts of any list are disjoint; together they lack only items whose type is neither that of normal
items nor that of key items (`Category.splits_part`). Both lists of a shop are such parts, whatever
its restrictions, for every inventory that comes about (`SellList.items_inCategory`,
`SellList.enabledItems_inCategory`), and after every move the inventory is again one that comes
about (`Session.arises_after`).
-/

set_option autoImplicit false

namespace SellRules

open Database (wanted)
open Std (TransCmp OrientedCmp)

namespace Category

/-- The value that names a category; nothing names none. -/
def toValue : Option Category → Value
  | none => .null
  | some category => .text category.name

theorem ofValue_toValue (category : Option Category) :
    ofValue (toValue category) = .ok category := by
  cases category with
  | none => rfl
  | some category => cases category <;> decide +kernel

/-- Any other value is refused. -/
theorem ofValue_of_ne {v : Value} (h : ∀ category, v ≠ toValue category) :
    ∃ fault, ofValue v = .error (.value fault) := by
  cases v with
  | null => exact absurd rfl (h none)
  | text s =>
    cases hname : ofName? s with
    | none => exact ⟨.unknownCategory (.text s), by simp only [ofValue, hname]⟩
    | some category =>
      have hsame : category.name = s := by simpa using List.find?_some hname
      exact absurd (by rw [toValue, hsame]) (h (some category))
  | bool | int | float | list | object | unpaired =>
    obtain ⟨fault, hfault⟩ := Failure.exists_showing_value _ _
    exact ⟨fault, congrArg Except.error hfault⟩

/-- An entry has an item type if the value that it has as its type is equal to that number. -/
theorem hasItemType_eq_equal (entry : Entry) (n : Int) :
    hasItemType entry n = entry.itemTypeId.equal (.int n) := by
  unfold hasItemType Value.equal
  cases hv : entry.itemTypeId with
  | float x =>
    by_cases hx : x = .notANumber
    · rw [hx]
      simp [Scalar.ofValue?, Value.similar, Scalar.same, Scalar.order, compareOn, Scalar.rank]
    · simp [Scalar.ofValue?, Value.similar, hx]
  | _ => simp [Scalar.ofValue?, Value.similar]

/-- No entry has two item types. -/
theorem eq_of_hasItemType {entry : Entry} {m n : Int} (hm : hasItemType entry m = true)
    (hn : hasItemType entry n = true) : m = n := by
  unfold hasItemType at hm hn
  cases htype : Scalar.ofValue? entry.itemTypeId with
  | none =>
    rw [htype] at hm
    cases hm
  | some a =>
    simp only [htype, Scalar.same, beq_iff_eq] at hm hn
    exact Scalar.order_int_eq.1 (TransCmp.eq_trans (OrientedCmp.eq_symm hm) hn)

/-- No entry belongs to two categories. -/
theorem eq_of_includes {c d : Category} {entry : Entry} (hc : c.includes entry = true)
    (hd : d.includes entry = true) : c = d := by
  have hdistinct : ¬ (hasItemType entry 1 = true ∧ hasItemType entry 2 = true) := fun h =>
    absurd (eq_of_hasItemType h.1 h.2) (by decide)
  cases hkind : entry.kind <;> cases c <;> cases d <;> simp_all [includes]

/-- An entry belongs to some category unless it is an item of another type than one and two. -/
theorem exists_includes_iff {entry : Entry} :
    (∃ c : Category, c.includes entry = true) ↔
      ¬ (entry.kind = .item ∧ entry.itemTypeId.equal (.int 1) = false ∧
        entry.itemTypeId.equal (.int 2) = false) := by
  rw [← hasItemType_eq_equal, ← hasItemType_eq_equal]
  constructor
  · rintro ⟨c, hc⟩ ⟨hkind, hone, htwo⟩
    cases c <;> simp_all [includes]
  · intro h
    cases hkind : entry.kind with
    | weapon => exact ⟨.weapon, by rw [includes, hkind]; rfl⟩
    | armor => exact ⟨.armor, by rw [includes, hkind]; rfl⟩
    | item =>
      cases hone : hasItemType entry 1 with
      | true => exact ⟨.item, by rw [includes, hkind, hone]; rfl⟩
      | false =>
        cases htwo : hasItemType entry 2 with
        | true => exact ⟨.keyItem, by rw [includes, hkind, htwo]; rfl⟩
        | false => exact absurd ⟨hkind, hone, htwo⟩ h

/-- Parts of one list under the four categories, and the list itself under none: each part has its
lines in the order of the list, no line is in two parts, and those in none of them are items of
another type than one and two. -/
structure Splits (parts : Option Category → List Line) : Prop where
  sublist : ∀ c : Category, (parts (some c)).Sublist (parts none)
  disjoint : ∀ c d : Category, c ≠ d → (parts (some c)).Disjoint (parts (some d))
  union : ∀ line, (∃ c : Category, line ∈ parts (some c)) ↔
    line ∈ parts none ∧ ¬ (line.entry.kind = .item ∧
      line.entry.itemTypeId.equal (.int 1) = false ∧ line.entry.itemTypeId.equal (.int 2) = false)

/-- What belongs to each category of any lines. -/
def part (lines : List Line) (category : Option Category) : List Line :=
  lines.filter fun line => category.all (·.includes line.entry)

theorem part_none (lines : List Line) : part lines none = lines :=
  List.filter_eq_self.2 fun _ _ => rfl

theorem mem_part_some {lines : List Line} {c : Category} {line : Line} :
    line ∈ part lines (some c) ↔ line ∈ lines ∧ c.includes line.entry = true :=
  List.mem_filter

theorem splits_part (lines : List Line) : Splits (part lines) where
  sublist c := by
    rw [part_none]
    exact List.filter_sublist
  disjoint c d hne line hc hd :=
    hne (eq_of_includes (mem_part_some.1 hc).2 (mem_part_some.1 hd).2)
  union line := by
    simp only [mem_part_some, part_none, exists_and_left, exists_includes_iff]

end Category

namespace SellList

variable {inventory : Inventory}

/-- The lines that are shown under a category are the part of those that the shop buys. -/
theorem filter_shows_inCategory (list : SellList) (category : Option Category)
    (lines : List Line) :
    (lines.filter fun line => SellList.shows { list with category } line.entry) =
      Category.part (lines.filter fun line => wanted list.restrictions line.entry) category := by
  rw [Category.part, List.filter_filter]
  rfl

theorem items_inCategory (list : SellList) (h : inventory.Arises) (category : Option Category) :
    SellList.items { list with category } inventory = .ok (Category.part
      (inventory.toList.filter fun line => wanted list.restrictions line.entry) category) := by
  rw [items_eq _ h, filter_shows_inCategory]

/-- Which of the shown lines can be sold does not depend on the category. -/
theorem enabledItems_inCategory (list : SellList) (h : inventory.Arises)
    (category : Option Category) :
    SellList.enabledItems { list with category } inventory = .ok (Category.part
      ((inventory.toList.filter fun line => wanted list.restrictions line.entry).filter
        fun line => list.sells line.entry) category) := by
  rw [enabledItems_eq _ h, filter_shows_inCategory, Category.part, List.filter_comm]
  rfl

end SellList

/-! ## Inventories that come about -/

namespace Party

theorem keeps_arises_add {entry : Entry} (h : entry.Tradable) (n : Int) :
    Action.Keeps (fun party : Party => party.inventory.Arises) (Party.add entry (.whole n)) :=
  keeps_add fun _ _ hparty hadd => .added hparty h hadd

theorem keeps_arises_remove (entry : Entry) (n : Int) :
    Action.Keeps (fun party : Party => party.inventory.Arises)
      (Party.remove entry (.whole n)) :=
  keeps_remove fun _ _ hparty hremove => .removed hparty hremove

theorem keeps_arises_sell (shop : Shop) (entry : Entry) (n : Int) :
    Action.Keeps (fun party : Party => party.inventory.Arises) (shop.sell entry (.int n)) := by
  refine (Action.keeps_ofExcept _).bind fun _ => ?_
  refine Action.keeps_ofExcept_bind fun amount hamount => ?_
  cases hamount
  refine (keeps_arises_remove entry n).bind fun _ => ?_
  refine (Action.keeps_ofExcept _).bind fun gold => ?_
  exact (Session.keeps_gainGold (fun inventory _ => inventory.Arises) gold).bind fun _ =>
    Action.keeps_pure gold

end Party

namespace Session

/-- A move after which the inventory is one that comes about, if it was before: what is added can be
traded, and amounts of goods are whole numbers. -/
inductive Move.Stocks : Move → Prop
  | add {entry : Entry} (tradable : entry.Tradable) (n : Int) : Stocks (.add entry (.int n))
  | remove (entry : Entry) (n : Int) : Stocks (.remove entry (.int n))
  | sell (number : Nat) (entry : Entry) (n : Int) : Stocks (.sell number entry (.int n))
  | gainGold (amount : Value) : Stocks (.gainGold amount)
  | other {m : Move} (trades : m.isTrade = false) : Stocks m

theorem keeps_arises {m : Move} (h : m.Stocks) :
    Action.Keeps (fun s : Session => s.game.party.inventory.Arises) (perform m) := by
  have party {α : Type} {a : Action Party α}
      (ha : Action.Keeps (fun party : Party => party.inventory.Arises) a) :
      Action.Keeps (fun s : Session => s.game.party.inventory.Arises) (onParty a) :=
    fun s hs => ha s.game.party hs
  cases h with
  | add htradable n => exact (party (Party.keeps_arises_add htradable n)).bind fun _ =>
      Action.keeps_pure _
  | remove entry n => exact (party (Party.keeps_arises_remove entry n)).bind fun _ =>
      Action.keeps_pure _
  | sell number entry n =>
    exact (keeps_shop _ number).bind fun shop =>
      (party (Party.keeps_arises_sell shop entry n)).bind fun _ => Action.keeps_pure _
  | gainGold amount =>
    exact (Action.keeps_ofExcept _).bind fun gold =>
      (party (keeps_gainGold (fun inventory _ => inventory.Arises) gold)).bind fun _ =>
        Action.keeps_pure _
  | other htrades => exact keeps_goods_of_not_trade htrades fun _ inventory => inventory.Arises

variable {s now : Session} {moves : List Move} {number : Nat} {list : SellList}

/-- Any number of such moves leave an inventory that comes about. -/
theorem arises_after (hstock : s.game.party.inventory.Arises) (hmoves : ∀ m ∈ moves, m.Stocks) :
    (s.after moves).game.party.inventory.Arises := by
  induction moves generalizing s with
  | nil => exact hstock
  | cons m moves ih =>
    obtain ⟨hm, hrest⟩ := List.forall_mem_cons.1 hmoves
    exact ih (keeps_arises hm s hstock) hrest

/-! ## Choosing a category -/

/-- The sell list of the shop with a number, if that is open. -/
def sellList? (number : Nat) (s : Session) : Option SellList :=
  (s.shop? number).bind (·.sellList)

/-- A category that a value names is chosen, and nothing else changes. -/
theorem perform_category (hopen : s.sellList? number = some list) (category : Option Category) :
    ∃ next, (perform (.category number (Category.toValue category))).perform s =
        (.ok .done, next) ∧
      next.sellList? number = some { list with category } ∧
      next.game.party = s.game.party := by
  have hlist : (s.shop? number).bind (·.sellList) = some list := hopen
  obtain ⟨shop, hshop, -⟩ := Option.bind_eq_some_iff.1 hopen
  have hnext := Stage.shop?_updateShop number
    (fun shop => { shop with sellList := some { list with category } }) s.game.stage number
  have hfound : s.game.stage.shop? number = some shop := hshop
  rw [if_pos rfl, hfound] at hnext
  simp only [perform, Action.perform_bind, perform_sellList, hlist, Category.ofValue_toValue,
    Action.perform_ofExcept]
  refine ⟨_, rfl, ?_, rfl⟩
  exact congrArg (fun found : Option Shop => found.bind (·.sellList)) hnext

/-- Any other value is refused, and nothing changes. -/
theorem perform_category_refused (hopen : s.sellList? number = some list) {v : Value}
    (hv : ∀ category, v ≠ Category.toValue category) :
    ∃ fault, (perform (.category number v)).perform s = (.error (.value fault), s) := by
  have hlist : (s.shop? number).bind (·.sellList) = some list := hopen
  obtain ⟨fault, hfault⟩ := Category.ofValue_of_ne hv
  refine ⟨fault, ?_⟩
  simp only [perform, Action.perform_bind, perform_sellList, hlist, hfault,
    Action.perform_ofExcept]

/-- **Categories split the sell list.** After any moves that stock the party with tradable entries,
look at an open shop, whatever its restrictions. What it lists under a category stands, in the same
order, in what it lists under none; nothing is listed under two categories; and of what it lists
under none, only items whose type is neither one nor two are listed under no category. The same
holds of what can be sold. A category is chosen by its name, and by nothing none is; any other value
is refused, and then everything stays as it was. -/
theorem categories_split_the_list (hstock : s.game.party.inventory.Arises)
    (hmoves : ∀ m ∈ moves, m.Stocks) (hnow : s.after moves = now)
    (hopen : now.sellList? number = some list) :
    (∃ listed enabled : Option Category → List Line,
      (∀ category,
        SellList.items { list with category } now.game.party.inventory = .ok (listed category) ∧
        SellList.enabledItems { list with category } now.game.party.inventory =
          .ok (enabled category)) ∧
      (∀ line, line ∈ listed none ↔
        line ∈ now.game.party.inventory ∧ list.buys line.entry = .ok true) ∧
      (∀ line, line ∈ enabled none ↔
        line ∈ now.game.party.inventory ∧ list.isEnabled line.entry = .ok true) ∧
      Category.Splits listed ∧ Category.Splits enabled) ∧
    (∀ category, ∃ next,
      (perform (.category number (Category.toValue category))).perform now = (.ok .done, next) ∧
      next.sellList? number = some { list with category } ∧
      next.game.party = now.game.party) ∧
    ∀ v, (∀ category, v ≠ Category.toValue category) →
      ∃ fault, (perform (.category number v)).perform now = (.error (.value fault), now) := by
  obtain rfl := hnow
  have harises := arises_after hstock hmoves
  refine ⟨⟨_, _, fun category => ⟨list.items_inCategory harises category,
    list.enabledItems_inCategory harises category⟩, fun line => ?_, fun line => ?_,
    Category.splits_part _, Category.splits_part _⟩, perform_category hopen,
    fun v => perform_category_refused hopen⟩
  · rw [Category.part_none, List.mem_filter, wanted, decide_eq_true_eq]
    rfl
  · rw [Category.part_none, List.mem_filter, List.mem_filter]
    constructor
    · rintro ⟨⟨hline, -⟩, hsells⟩
      exact ⟨hline, of_decide_eq_true hsells⟩
    · rintro ⟨hline, henabled⟩
      have hsells : list.sells line.entry = true := decide_eq_true henabled
      have htradable := (harises.sound line hline).tradable
      exact ⟨⟨hline, (list.isEnabled_eq_sells htradable).2 hsells⟩, hsells⟩

/-- An item that is neither a normal one nor a key item. -/
def scroll : Entry :=
  { id := .int 4, name := .text "scroll", kind := .item, price := .int 9, itemTypeId := .int 3 }

/-- Potions and a scroll come in, the weapons are chosen, and a category that there is not is
refused. -/
def stocking : List Move :=
  [.add Shop.potion (.int 2), .category 0 (.text "weapon"), .add scroll (.int 1),
    .category 0 (.text "scroll"), .sell 0 Shop.potion (.int 1)]

/-- The scroll is listed under no category, and the potion under its own. -/
theorem scroll_is_in_no_category :
    (({ interpreters := [{}] } : Session).after [.execute 0 Play.oneGood]).game.party.inventory =
        .empty ∧
      (∀ m ∈ stocking, m.Stocks) ∧
      ((({ interpreters := [{}] } : Session).after [.execute 0 Play.oneGood]).after
        stocking).sellList? 0 = some { restrictions := none, category := some .weapon } ∧
      ∃ listed : Option Category → List Line, Category.Splits listed ∧
        ⟨⟨.item, .int 4⟩, scroll, .whole 1⟩ ∈ listed none ∧
        ∀ c : Category, ⟨⟨.item, .int 4⟩, scroll, .whole 1⟩ ∉ listed (some c) := by
  have hempty : (({ interpreters := [{}] } : Session).after
      [.execute 0 Play.oneGood]).game.party.inventory = .empty := by decide +kernel
  have hscroll : scroll.Tradable :=
    ⟨⟨rfl, ⟨4, rfl⟩, by simp [Entry.typeIds, scroll, Value.hasParts], ⟨_, rfl⟩⟩, ⟨9, rfl⟩⟩
  have hmoves : ∀ m ∈ stocking, m.Stocks := by
    simp only [stocking, List.forall_mem_cons, List.not_mem_nil, false_implies, implies_true,
      and_true]
    exact ⟨.add Shop.tradable_potion 2, .other rfl, .add hscroll 1, .other rfl, .sell 0 _ 1⟩
  have hopen : ((({ interpreters := [{}] } : Session).after [.execute 0 Play.oneGood]).after
      stocking).sellList? 0 = some { restrictions := none, category := some .weapon } := by
    decide +kernel
  obtain ⟨⟨listed, -, -, hlisted, -, hsplits, -⟩, -⟩ :=
    categories_split_the_list (hempty ▸ .empty) hmoves rfl hopen
  have hscrollLine : ⟨⟨.item, .int 4⟩, scroll, .whole 1⟩ ∈ listed none := by
    refine (hlisted _).2 ⟨?_, by decide +kernel⟩
    rw [OrderedList.mem_def]
    decide +kernel
  refine ⟨hempty, hmoves, hopen, listed, hsplits, hscrollLine, fun c hc => ?_⟩
  exact ((hsplits.union _).1 ⟨c, hc⟩).2 (by decide +kernel)

end Session
end SellRules
