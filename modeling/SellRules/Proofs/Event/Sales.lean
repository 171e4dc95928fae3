import SellRules.Proofs.Event.Isolation
import SellRules.Proofs.Party.Account
import SellRules.Proofs.Party.Holdings

/-!
# Sales add up and commute

What a sale changes is the gold and the line under the key of its entry. An inventory is known by
the line under each key, so two amounts that are taken from one line, or from two, leave the same in
whatever order (`Inventory.taking_taking`, `Inventory.taking_comm`). Whether a sale succeeds depends
on the party only through what it holds under that key (`Session.Sells`). What two sales ask for
together (`Session.SellsBoth`) does not depend on their order.
-/

set_option autoImplicit false

namespace SellRules

open Std (TransCmp OrientedCmp ReflCmp)

/-- How many there are in a line. -/
def Line.count (line : Line) : Int := line.amount.whole?.getD 0

/-- A line with some less in it, if anything is left. -/
def Line.less (n : Int) (line : Line) : Option Line :=
  if line.count = n then none else some { line with amount := .whole (line.count - n) }

/-- Amounts that are taken from a line one after the other add up. -/
theorem Line.less_less {line : Line} {m : Int} (h : m < line.count) (n : Int) :
    (line.less m).bind (Line.less n) = line.less (m + n) := by
  have hleft : line.count ≠ m := by omega
  have hcount : Line.count { line with amount := .whole (line.count - m) } = line.count - m := rfl
  have hnone : line.count - m = n ↔ line.count = m + n := by omega
  rw [less, if_neg hleft, Option.bind_some, less, less, hcount]
  simp only [hnone, Int.sub_sub]

namespace Inventory

/-- The inventory with some of what is under a key taken away. -/
def taking (inventory : Inventory) (key : Key) (n : Int) : Inventory :=
  match inventory.find? key with
  | some line => inventory.leaving line (line.count - n)
  | none => inventory

variable {inventory : Inventory} {line : Line} {key other : Key} {entry : Entry} {held m n : Int}

theorem taking_of_find? (h : inventory.find? key = some line) (n : Int) :
    inventory.taking key n = inventory.leaving line (line.count - n) := by
  rw [taking, h]

theorem find?_taking (inventory : Inventory) (key : Key) (n : Int) (other : Key) :
    (inventory.taking key n).find? other =
      if other.order key = .eq then (inventory.find? other).bind (Line.less n)
      else inventory.find? other := by
  cases hfind : inventory.find? key with
  | none =>
    have hnone : inventory.taking key n = inventory := by rw [taking, hfind]
    rw [hnone]
    by_cases h : other.order key = .eq
    · rw [if_pos h, find?_congr inventory h, hfind]
      rfl
    · rw [if_neg h]
  | some line =>
    have hkey : key.order line.key = .eq := (find?_eq_some_iff.1 hfind).2
    have hleft : line.count - n = 0 ↔ line.count = n := by omega
    rw [taking_of_find? hfind, find?_leaving, ← TransCmp.congr_right hkey]
    by_cases h : other.order key = .eq
    · rw [if_pos h, if_pos h, find?_congr inventory h, hfind]
      simp only [hleft]
      rfl
    · rw [if_neg h, if_neg h]

theorem count_of_held (hfind : inventory.find? key = some line)
    (hheld : inventory.held key = .whole held) : line.count = held := by
  rw [held_eq_of_find? hfind] at hheld
  rw [Line.count, hheld]
  rfl

theorem remove_eq_taking (hkey : entry.key = .ok key) (hheld : inventory.held key = .whole held)
    (hpos : 0 < n) (hle : n ≤ held) :
    inventory.remove entry (.whole n) = .ok (inventory.taking key n) := by
  obtain ⟨line, hline, -, hremove⟩ := remove_eq_ok hkey hheld hpos hle
  rw [hremove, taking_of_find? hline, count_of_held hline hheld]

theorem held_taking (hheld : inventory.held key = .whole held) (hpos : 0 < held) (n : Int)
    (other : Key) :
    (inventory.taking key n).held other =
      if other.order key = .eq then .whole (held - n) else inventory.held other := by
  obtain ⟨line, hline, -⟩ := exists_line_of_held hheld hpos
  have hkey : key.order line.key = .eq := (find?_eq_some_iff.1 hline).2
  rw [taking_of_find? hline, held_leaving, count_of_held hline hheld, TransCmp.congr_right hkey]

theorem Counted.taking (h : inventory.Counted) (key : Key) (n : Int) :
    (inventory.taking key n).Counted := by
  intro other hother
  unfold Inventory.taking at hother
  split at hother
  next line hline =>
    rcases mem_leaving hother with ⟨-, rfl⟩ | hmem
    · exact ⟨_, rfl⟩
    · exact h other hmem
  next => exact h other hother

/-- What is taken from under a key at two times is taken at once. -/
theorem taking_taking (hheld : inventory.held key = .whole held) (hpos : 0 < m) (hlt : m < held)
    (n : Int) : (inventory.taking key m).taking key n = inventory.taking key (m + n) := by
  obtain ⟨line, hline, -⟩ := exists_line_of_held hheld (by omega)
  have hcount := count_of_held hline hheld
  refine ext_find? fun other => ?_
  simp only [find?_taking]
  by_cases h : other.order key = .eq
  · simp only [h, ↓reduceIte, find?_congr inventory h, hline, Option.bind_some]
    exact line.less_less (by omega) n
  · simp only [h, ↓reduceIte]

theorem taking_congr (inventory : Inventory) (h : other.order key = .eq) (n : Int) :
    inventory.taking other n = inventory.taking key n := by
  refine ext_find? fun k => ?_
  rw [find?_taking, find?_taking, TransCmp.congr_right h]

/-- Amounts are taken from under two keys in either order. -/
theorem taking_comm (hheld : inventory.held key = .whole held) (hm : 0 < m) (hn : 0 < n)
    (henough : other.order key = .eq → m + n ≤ held) :
    (inventory.taking key m).taking other n = (inventory.taking other n).taking key m := by
  -- Under one key both orders take the sum; under two keys each amount is taken where it is.
  by_cases hsame : other.order key = .eq
  · have hle := henough hsame
    rw [taking_congr _ hsame, taking_congr _ hsame, taking_taking hheld hm (by omega),
      taking_taking hheld hn (by omega), Int.add_comm]
  · refine ext_find? fun k => ?_
    simp only [find?_taking]
    by_cases hk : k.order key = .eq
    · have hother : k.order other ≠ .eq := fun h =>
        hsame (TransCmp.eq_trans (OrientedCmp.eq_symm h) hk)
      simp only [hk, hother, ↓reduceIte]
    · simp only [hk, ↓reduceIte]

end Inventory

namespace Session

/-- All of some moves succeed, one after the other. -/
def Succeeds (moves : List Move) (s : Session) : Prop :=
  ∀ reply ∈ (performAll moves s).1, reply.isOk = true

instance (moves : List Move) (s : Session) : Decidable (s.Succeeds moves) :=
  inferInstanceAs (Decidable (∀ reply ∈ (performAll moves s).1, reply.isOk = true))

/-- A sale that succeeds: the shop is there and wants the entry, and the amount is above zero and
held under the key of the entry. -/
structure Sells (s : Session) (number : Nat) (entry : Entry) (n : Int) (key : Key) : Prop where
  wanted : ∃ shop, s.shop? number = some shop ∧ shop.consider entry = .ok ()
  hasKey : entry.key = .ok key
  pos : 0 < n
  enough : ∃ held, s.game.party.inventory.held key = .whole held ∧ n ≤ held

/-- The session after some was taken from under a key, with so much gold then. -/
def sold (key : Key) (n gold : Int) (s : Session) : Session :=
  let party : Party :=
    { s.game.party with inventory := s.game.party.inventory.taking key n, gold := .int gold }
  { s with game := { s.game with party } }

variable {s : Session} {i j number : Nat} {entry e f : Entry} {key k l : Key}
  {gold price m n p q : Int}

theorem gold_sold (key : Key) (n gold : Int) (s : Session) :
    (s.sold key n gold).game.party.gold = .int gold := rfl

theorem succeeds_cons (move : Move) (rest : List Move) (s : Session) :
    s.Succeeds (move :: rest) ↔
      ((perform move).perform s).1.isOk = true ∧ (s.next move).Succeeds rest :=
  List.forall_mem_cons

theorem succeeds_nil (s : Session) : s.Succeeds [] := List.forall_mem_nil _

/-! ## One sale -/

theorem perform_sell_of_sells (hprice : entry.price = .int price)
    (hgold : s.game.party.gold = .int gold) (h : s.Sells number entry n key) :
    (perform (.sell number entry (.int n))).perform s =
      (.ok (.amount (.whole (price.fdiv 2 * n))), s.sold key n (gold + price.fdiv 2 * n)) := by
  obtain ⟨⟨shop, hshop, hconsider⟩, hkey, hpos, held, hheld, hle⟩ := h
  have hsell := Shop.perform_sell_of_remove_ok hconsider hprice
    (Inventory.remove_eq_taking hkey hheld hpos hle) hgold
    (Shop.payment_nonneg (Shop.pos_of_consider hprice hconsider) hpos)
  simp only [perform, Action.perform_bind, perform_shop, hshop, onParty, Game.onParty,
    Action.perform_within, hsell, Action.perform_pure, sold]

theorem perform_sell_of_not_sells (hcounted : s.game.party.inventory.Counted)
    (h : ¬ ∃ key, s.Sells number entry n key) :
    ∃ f, ((perform (.sell number entry (.int n))).perform s).1 = .error f := by
  simp only [perform, Action.perform_bind, perform_shop]
  cases hshop : s.shop? number with
  | none => exact ⟨_, rfl⟩
  | some shop =>
    simp only [onParty, Game.onParty, Action.perform_within]
    cases hconsider : shop.consider entry with
    | error f => exact ⟨f, by rw [Shop.perform_sell_of_consider_error hconsider]⟩
    | ok =>
      cases hremove : s.game.party.inventory.remove entry (.whole n) with
      | error f => exact ⟨f, by rw [Shop.perform_sell_of_remove_error hconsider hremove]⟩
      | ok inventory =>
        obtain ⟨key, hkey, -⟩ := bind_eq_ok.1 hremove
        obtain ⟨held, hheld⟩ := hcounted.held key
        by_cases hn : n ≤ 0 ∨ held < n
        · obtain ⟨fault, hrefused⟩ := Inventory.remove_eq_error hkey hheld hn
          cases hrefused.symm.trans hremove
        · exact absurd ⟨key, ⟨shop, hshop, hconsider⟩, hkey, by omega, held, hheld, by omega⟩ h

/-- A sale succeeds exactly if the shop wants the entry and so much is held. -/
theorem succeeds_sell_cons_iff (hprice : entry.price = .int price)
    (hgold : s.game.party.gold = .int gold) (hcounted : s.game.party.inventory.Counted)
    (rest : List Move) :
    s.Succeeds (.sell number entry (.int n) :: rest) ↔
      ∃ key, s.Sells number entry n key ∧
        (s.sold key n (gold + price.fdiv 2 * n)).Succeeds rest := by
  rw [succeeds_cons]
  constructor
  · rintro ⟨hok, hrest⟩
    by_cases h : ∃ key, s.Sells number entry n key
    · obtain ⟨key, hsells⟩ := h
      refine ⟨key, hsells, ?_⟩
      rwa [next, perform_sell_of_sells hprice hgold hsells] at hrest
    · obtain ⟨f, hfail⟩ := perform_sell_of_not_sells hcounted h
      rw [hfail] at hok
      cases hok
  · rintro ⟨key, hsells, hrest⟩
    rw [next, perform_sell_of_sells hprice hgold hsells]
    exact ⟨rfl, hrest⟩

/-- What is held after a sale. -/
theorem held_sold (h : s.Sells i e m k) (gold : Int) (l : Key) :
    ∃ held, s.game.party.inventory.held k = .whole held ∧ m ≤ held ∧
      (s.sold k m gold).game.party.inventory.held l =
        if l.order k = .eq then .whole (held - m) else s.game.party.inventory.held l := by
  obtain ⟨held, hheld, hle⟩ := h.enough
  have hpos := h.pos
  exact ⟨held, hheld, hle, Inventory.held_taking hheld (by omega) m l⟩

/-! ## Two sales -/

/-- What two sales together ask for: each shop wants its entry, and what is held under each key is
enough, for both amounts if it is the same key. -/
structure SellsBoth (s : Session) (i : Nat) (e : Entry) (m : Int) (k : Key) (j : Nat) (f : Entry)
    (n : Int) (l : Key) : Prop where
  first : s.Sells i e m k
  second : s.Sells j f n l
  enough : ∀ held, s.game.party.inventory.held k = .whole held → l.order k = .eq → m + n ≤ held

theorem SellsBoth.symm (h : s.SellsBoth i e m k j f n l) : s.SellsBoth j f n l i e m k := by
  refine ⟨h.second, h.first, fun held hheld hsame => ?_⟩
  rw [← Inventory.held_congr _ hsame] at hheld
  have hle := h.enough held hheld (OrientedCmp.eq_symm hsame)
  omega

/-- A second sale succeeds after a first one exactly if there is enough for both. -/
theorem sells_and_sells_sold_iff (gold : Int) :
    s.Sells i e m k ∧ (s.sold k m gold).Sells j f n l ↔ s.SellsBoth i e m k j f n l := by
  constructor
  · rintro ⟨hfirst, hsecond⟩
    obtain ⟨held, hheld, -, hsold⟩ := held_sold hfirst gold l
    obtain ⟨left, hleft, hle⟩ := hsecond.enough
    have hpos := hfirst.pos
    rw [hsold] at hleft
    -- What the second sale finds under its key is what the first one left there, or all of it.
    by_cases hsame : l.order k = .eq
    · rw [if_pos hsame] at hleft
      cases hleft
      refine ⟨hfirst, ⟨hsecond.wanted, hsecond.hasKey, hsecond.pos, held, ?_, by omega⟩, ?_⟩
      · rw [Inventory.held_congr _ hsame, hheld]
      · intro held' hheld' _
        cases hheld.symm.trans hheld'
        omega
    · rw [if_neg hsame] at hleft
      exact ⟨hfirst, ⟨hsecond.wanted, hsecond.hasKey, hsecond.pos, left, hleft, hle⟩,
        fun _ _ h => absurd h hsame⟩
  · rintro ⟨hfirst, hsecond, henough⟩
    obtain ⟨held, hheld, -, hsold⟩ := held_sold hfirst gold l
    refine ⟨hfirst, hsecond.wanted, hsecond.hasKey, hsecond.pos, ?_⟩
    rw [hsold]
    by_cases hsame : l.order k = .eq
    · have hboth := henough held hheld hsame
      exact ⟨held - m, if_pos hsame, by omega⟩
    · rw [if_neg hsame]
      exact hsecond.enough

/-- Two sales of one entry to one shop ask for what one sale of both amounts asks for. -/
theorem sellsBoth_self_iff (hm : 0 < m) (hn : 0 < n) :
    s.SellsBoth i e m k i e n k ↔ s.Sells i e (m + n) k := by
  constructor
  · rintro ⟨hfirst, -, henough⟩
    obtain ⟨held, hheld, -⟩ := hfirst.enough
    exact ⟨hfirst.wanted, hfirst.hasKey, by omega, held, hheld,
      henough held hheld ReflCmp.compare_self⟩
  · rintro ⟨hwanted, hkey, -, held, hheld, hle⟩
    refine ⟨⟨hwanted, hkey, hm, held, hheld, by omega⟩,
      ⟨hwanted, hkey, hn, held, hheld, by omega⟩, fun held' hheld' _ => ?_⟩
    cases hheld.symm.trans hheld'
    exact hle

/-- Two sales succeed exactly if there is enough for both. -/
theorem succeeds_sales_iff (he : e.price = .int p) (hf : f.price = .int q)
    (hgold : s.game.party.gold = .int gold) (hcounted : s.game.party.inventory.Counted) :
    s.Succeeds [.sell i e (.int m), .sell j f (.int n)] ↔
      ∃ k l, s.SellsBoth i e m k j f n l := by
  rw [succeeds_sell_cons_iff he hgold hcounted]
  refine exists_congr fun k => ?_
  have hsold := gold_sold k m (gold + p.fdiv 2 * m) s
  rw [succeeds_sell_cons_iff hf hsold (hcounted.taking k m), ← exists_and_left]
  refine exists_congr fun l => ?_
  rw [← sells_and_sells_sold_iff (gold + p.fdiv 2 * m), iff_true_intro (succeeds_nil _), and_true]

/-- What two sales answer and leave. -/
theorem performAll_sales (he : e.price = .int p) (hf : f.price = .int q)
    (hgold : s.game.party.gold = .int gold) (h : s.SellsBoth i e m k j f n l) :
    performAll [.sell i e (.int m), .sell j f (.int n)] s =
      ([.ok (.amount (.whole (p.fdiv 2 * m))), .ok (.amount (.whole (q.fdiv 2 * n)))],
        (s.sold k m (gold + p.fdiv 2 * m)).sold l n (gold + p.fdiv 2 * m + q.fdiv 2 * n)) := by
  have hsold := gold_sold k m (gold + p.fdiv 2 * m) s
  obtain ⟨hfirst, hsecond⟩ := (sells_and_sells_sold_iff (gold + p.fdiv 2 * m)).2 h
  simp only [performAll, perform_sell_of_sells he hgold hfirst,
    perform_sell_of_sells hf hsold hsecond]

/-- Two sales leave the same in either order. -/
theorem sold_comm (h : s.SellsBoth i e m k j f n l) (first second : Int) :
    (s.sold k m first).sold l n gold = (s.sold l n second).sold k m gold := by
  obtain ⟨held, hheld, -⟩ := h.first.enough
  simp only [sold,
    Inventory.taking_comm hheld h.first.pos h.second.pos (h.enough held hheld)]

theorem sold_sold (h : s.SellsBoth i e m k j f n k) (first : Int) :
    (s.sold k m first).sold k n gold = s.sold k (m + n) gold := by
  obtain ⟨held, hheld, -⟩ := h.first.enough
  have hle := h.enough held hheld ReflCmp.compare_self
  have hpos := h.second.pos
  simp only [sold, Inventory.taking_taking hheld h.first.pos (show m < held by omega)]

/-- **Sales add up and commute.** In any session with whole gold and whole amounts, for entries with
whole prices: some of an entry is sold to a shop in one sale exactly if it is in two sales, whose
payments add up to that of the one; and two sales, to one shop or to two, succeed in one order
exactly if they do in the other. Either way the session is the same afterwards: the gold, what is
held, and what every shop lists and sells. -/
theorem sales_add_up_and_commute (hgold : s.game.party.gold = .int gold)
    (hcounted : s.game.party.inventory.Counted) :
    (∀ i e p a b, e.price = .int p → 1 ≤ a → 1 ≤ b →
      (s.Succeeds [.sell i e (.int (a + b))] ↔
        s.Succeeds [.sell i e (.int a), .sell i e (.int b)]) ∧
      (s.Succeeds [.sell i e (.int (a + b))] → ∃ first second later,
        performAll [.sell i e (.int a), .sell i e (.int b)] s =
          ([.ok (.amount (.whole first)), .ok (.amount (.whole second))], later) ∧
        performAll [.sell i e (.int (a + b))] s =
          ([.ok (.amount (.whole (first + second)))], later))) ∧
    ∀ i e p m j f q n, e.price = .int p → f.price = .int q →
      (s.Succeeds [.sell i e (.int m), .sell j f (.int n)] ↔
        s.Succeeds [.sell j f (.int n), .sell i e (.int m)]) ∧
      (s.Succeeds [.sell i e (.int m), .sell j f (.int n)] →
        s.after [.sell i e (.int m), .sell j f (.int n)] =
          s.after [.sell j f (.int n), .sell i e (.int m)]) := by
  constructor
  · intro i e p a b hprice ha hb
    have hone : s.Succeeds [.sell i e (.int (a + b))] ↔ ∃ k, s.SellsBoth i e a k i e b k := by
      rw [succeeds_sell_cons_iff hprice hgold hcounted]
      refine exists_congr fun k => ?_
      rw [sellsBoth_self_iff (by omega) (by omega), iff_true_intro (succeeds_nil _), and_true]
    constructor
    · rw [hone, succeeds_sales_iff hprice hprice hgold hcounted]
      constructor
      · rintro ⟨k, hboth⟩
        exact ⟨k, k, hboth⟩
      · rintro ⟨k, l, hboth⟩
        cases hboth.first.hasKey.symm.trans hboth.second.hasKey
        exact ⟨k, hboth⟩
    · rw [hone]
      rintro ⟨k, hboth⟩
      refine ⟨_, _, _, performAll_sales hprice hprice hgold hboth, ?_⟩
      rw [sold_sold hboth, ← Int.mul_add, Int.add_assoc, ← Int.mul_add]
      have hsells := (sellsBoth_self_iff (by omega) (by omega)).1 hboth
      simp only [performAll, perform_sell_of_sells hprice hgold hsells]
  · intro i e p m j f q n he hf
    rw [succeeds_sales_iff he hf hgold hcounted, succeeds_sales_iff hf he hgold hcounted]
    constructor
    · constructor
      · rintro ⟨k, l, hboth⟩
        exact ⟨l, k, hboth.symm⟩
      · rintro ⟨l, k, hboth⟩
        exact ⟨k, l, hboth.symm⟩
    · rintro ⟨k, l, hboth⟩
      rw [after, after, performAll_sales he hf hgold hboth,
        performAll_sales hf he hgold hboth.symm, Int.add_right_comm]
      exact sold_comm hboth _ _

/-- Three potions, and two shops that are open one above the other. -/
def market : Session :=
  after [.add Shop.potion (.int 3), .execute 0 Play.oneGood, .execute 0 Play.oneGood]
    { interpreters := [{}] }

/-- The three potions are sold together or apart, and to either shop first. -/
theorem three_potions_are_sold_in_any_order :
    market.game.party.gold = .int 0 ∧ market.game.party.inventory.Counted ∧
      market.Succeeds [.sell 0 Shop.potion (.int 1), .sell 0 Shop.potion (.int 2)] ∧
      (∃ first second later,
        performAll [.sell 0 Shop.potion (.int 3)] market =
          ([.ok (.amount (.whole (first + second)))], later)) ∧
      market.after [.sell 1 Shop.potion (.int 2), .sell 0 Shop.potion (.int 1)] =
        market.after [.sell 0 Shop.potion (.int 1), .sell 1 Shop.potion (.int 2)] := by
  have hgold : market.game.party.gold = .int 0 := by decide +kernel
  have hlines : market.game.party.inventory.toList =
      [⟨⟨.item, .int 1⟩, Shop.potion, .whole 3⟩] := by decide +kernel
  have hcounted : market.game.party.inventory.Counted := by
    intro line hline
    rw [OrderedList.mem_def, hlines, List.mem_singleton] at hline
    exact ⟨3, by rw [hline]⟩
  obtain ⟨hadd, hcomm⟩ := sales_add_up_and_commute hgold hcounted
  obtain ⟨hiff, hpaid⟩ := hadd 0 Shop.potion 5 1 2 rfl (by decide) (by decide)
  have hone : market.Succeeds [.sell 0 Shop.potion (.int (1 + 2))] := by decide +kernel
  obtain ⟨first, second, later, -, hsold⟩ := hpaid hone
  exact ⟨hgold, hcounted, hiff.1 hone, ⟨first, second, later, hsold⟩,
    (hcomm 1 Shop.potion 5 2 0 Shop.potion 5 1 rfl rfl).2 (by decide +kernel)⟩

end Session
end SellRules
