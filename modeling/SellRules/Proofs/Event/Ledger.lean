import Mathlib.Algebra.Ring.Int.Defs
import SellRules.Proofs.Event.Isolation
import SellRules.Proofs.Party.Account

/-!
# The ledger of a session

Gold and stock are conserved over whole sessions. The ledger lists the moves that were made with what
they answered (`Session.ledger`); each entry of it has an income and, under each key, what it added,
removed and sold. A move either leaves what the party has or settles (`Session.posts_of_isWhole`),
and so after any run the party has what it had at first and what the ledger says
(`Session.gold_and_stock_are_conserved`).
-/

set_option autoImplicit false

namespace SellRules

namespace Session

/-- A move with what it answered. -/
abbrev Posting := Move × Except Failure Reply

/-- The moves of a run, each with what it answered. -/
def ledger (moves : List Move) (s : Session) : List Posting := moves.zip (performAll moves s).1

theorem ledger_cons (m : Move) (moves : List Move) (s : Session) :
    s.ledger (m :: moves) = (m, ((perform m).perform s).1) :: (s.next m).ledger moves := rfl

namespace Posting

/-- The gold that a successful gift or sale brought in. -/
def income : Posting → Int
  | (.gainGold (.int n), .ok _) => n
  | (.sell _ _ _, .ok (.amount paid)) => paid.whole?.getD 0
  | _ => 0

/-- The amount above zero that was added under a key. -/
def added (key : Key) : Posting → Int
  | (.add entry (.int n), .ok _) => entry.portion (max n 0) key
  | _ => 0

/-- The amount that was successfully removed under a key. -/
def removed (key : Key) : Posting → Int
  | (.remove entry (.int n), .ok _) => entry.portion n key
  | _ => 0

/-- The amount that was successfully sold under a key. -/
def sold (key : Key) : Posting → Int
  | (.sell _ entry (.int n), .ok _) => entry.portion n key
  | _ => 0

/-- How a move changed the stock under a key. -/
def change (key : Key) (posting : Posting) : Int :=
  posting.added key - posting.removed key - posting.sold key

theorem change_error (m : Move) (f : Failure) (key : Key) : change key (m, .error f) = 0 := by
  cases m <;> simp [change, added, removed, sold]

theorem income_error (m : Move) (f : Failure) : income (m, .error f) = 0 := by
  cases m <;> simp [income]

theorem sum_change (key : Key) (ledger : List Posting) :
    (ledger.map (change key)).sum =
      (ledger.map (added key)).sum - (ledger.map (removed key)).sum -
        (ledger.map (sold key)).sum := by
  induction ledger with
  | nil => rfl
  | cons posting ledger ih =>
    simp only [List.map_cons, List.sum_cons, ih, change]
    omega

end Posting

/-- The amounts of a move, and the price of what it sells, are whole numbers. -/
inductive Move.IsWhole : Move → Prop
  | gainGold (n : Int) : IsWhole (.gainGold (.int n))
  | add (entry : Entry) (n : Int) : IsWhole (.add entry (.int n))
  | remove (entry : Entry) (n : Int) : IsWhole (.remove entry (.int n))
  | sell (number : Nat) {entry : Entry} {price : Int} (price_eq : entry.price = .int price)
      (n : Int) : IsWhole (.sell number entry (.int n))
  | other {m : Move} (trades : m.isTrade = false) : IsWhole m

variable {α : Type} {m : Move} {s : Session} {gold : Int} {stock : Key → Int}

/-! ## One move -/

theorem party_next_of_maker {i : Nat} (h : m.maker = some i) (s : Session) :
    (s.next m).game.party = s.game.party := by
  obtain ⟨reply, opened, interpreter, hacts, -⟩ := exists_acts h (Alike.refl i s)
  rw [hacts.game]

/-- A move that is no trade leaves the gold and the inventory as they are. -/
theorem keeps_goods_of_not_trade (h : m.isTrade = false) (P : Value → Inventory → Prop) :
    Action.Keeps (fun s : Session => P s.game.party.gold s.game.party.inventory) (perform m) := by
  cases hm : m.maker with
  | some i =>
    intro s hs
    show P (s.next m).game.party.gold (s.next m).game.party.inventory
    rw [party_next_of_maker hm]
    exact hs
  | none =>
    by_cases hbattle : ∃ v, m = .battle v
    · obtain ⟨v, rfl⟩ := hbattle
      exact fun _ hs => hs
    · exact keeps_of_not_trade hm (not_exists.1 hbattle) h fun _ party => P party.gold party.inventory

/-- What a move left of a party is in accord with what it posts. -/
def Posts (m : Move) (gold : Int) (stock : Key → Int) (s : Session) : Prop :=
  0 ≤ Posting.income (m, ((perform m).perform s).1) ∧
    (s.next m).game.party.Has (gold + Posting.income (m, ((perform m).perform s).1))
      fun key => stock key + Posting.change key (m, ((perform m).perform s).1)

/-- A move that fails and leaves the session as it is posts nothing. -/
theorem posts_of_error {f : Failure} (hs : s.game.party.Has gold stock)
    (hm : (perform m).perform s = (.error f, s)) : s.Posts m gold stock := by
  have hnext : s.next m = s := congrArg Prod.snd hm
  rw [Posts, hnext, hm]
  simp only [Posting.income_error, Posting.change_error, Int.add_zero]
  exact ⟨Int.le_refl 0, hs⟩

/-- A trade posts its income and its change, or it fails and leaves the session as it is. -/
theorem posts_of_settles (reply : α → Reply) {a : Action Party α} {income : α → Int}
    {change : Key → Int} (hs : s.game.party.Has gold stock)
    (hm : (perform m).perform s = Action.perform (do return reply (← onParty a)) s)
    (ha : Party.Settles a income change)
    (hincome : ∀ answer, Posting.income (m, .ok (reply answer)) = income answer)
    (hchange : ∀ answer key, Posting.change key (m, .ok (reply answer)) = change key) :
    s.Posts m gold stock := by
  rw [Action.perform_bind] at hm
  simp only [onParty, Game.onParty, Action.perform_within] at hm
  rcases ha gold stock s.game.party hs with ⟨f, hfail⟩ | ⟨answer, party, hdone, hpaid, hnext⟩
  · rw [hfail] at hm
    exact posts_of_error hs hm
  · rw [hdone] at hm
    have hreply : ((perform m).perform s).1 = .ok (reply answer) := congrArg Prod.fst hm
    have hparty : (s.next m).game.party = party := congrArg (fun o => o.2.game.party) hm
    rw [Posts, hreply, hparty, hincome]
    simp only [hchange]
    exact ⟨hpaid, hnext⟩

/-- **One move**: the party has what it had and what the move posts. -/
theorem posts_of_isWhole (hs : s.game.party.Has gold stock) (hm : m.IsWhole) :
    s.Posts m gold stock := by
  cases hm with
  | gainGold n =>
    exact posts_of_settles (fun _ => .done) hs rfl (Party.settles_gainGold n)
      (fun _ => rfl) fun _ _ => rfl
  | add entry n =>
    refine posts_of_settles (fun _ => .done) hs rfl (Party.settles_add entry n)
      (fun _ => rfl) fun _ key => ?_
    simp only [Posting.change, Posting.added, Posting.removed, Posting.sold, Int.sub_zero]
  | remove entry n =>
    refine posts_of_settles (fun _ => .done) hs rfl (Party.settles_remove entry n)
      (fun _ => rfl) fun _ key => ?_
    simp only [Posting.change, Posting.added, Posting.removed, Posting.sold, Int.sub_zero]
    rw [Entry.portion_neg, Int.zero_sub]
  | @sell number entry price hprice n =>
    cases hshop : s.shop? number with
    | none =>
      refine posts_of_error (f := .noElement) hs ?_
      simp only [perform, Action.perform_bind, perform_shop, hshop]
    | some shop =>
      refine posts_of_settles .amount hs ?_ (shop.settles_sell hprice n)
        (fun _ => rfl) fun _ key => ?_
      · simp only [perform, Action.perform_bind, perform_shop, hshop]
      · simp only [Posting.change, Posting.added, Posting.removed, Posting.sold, Int.sub_zero]
        rw [Entry.portion_neg, Int.zero_sub]
  | @other m hm =>
    have hincome (reply : Except Failure Reply) : Posting.income (m, reply) = 0 := by
      cases m <;> first | rfl | cases hm
    have hchange (reply : Except Failure Reply) (key : Key) : Posting.change key (m, reply) = 0 := by
      cases m <;> first | rfl | cases hm
    rw [Posts]
    simp only [hincome, hchange, Int.add_zero]
    refine ⟨Int.le_refl 0, ?_, ?_, hs.nonneg⟩
    · exact keeps_goods_of_not_trade hm (fun g _ => g = .int gold) s hs.gold
    · exact keeps_goods_of_not_trade hm
        (fun _ inventory => ∀ key, inventory.held key = .whole (stock key)) s hs.held

/-! ## Runs -/

/-- What a party has after a run: what it had and what the ledger posts. -/
theorem has_after {moves : List Move} (hs : s.game.party.Has gold stock)
    (hmoves : ∀ m ∈ moves, m.IsWhole) :
    0 ≤ ((s.ledger moves).map Posting.income).sum ∧
      (s.after moves).game.party.Has (gold + ((s.ledger moves).map Posting.income).sum)
        fun key => stock key + ((s.ledger moves).map (Posting.change key)).sum := by
  induction moves generalizing s gold stock with
  | nil =>
    refine ⟨Int.le_refl 0, ?_⟩
    show s.game.party.Has (gold + 0) fun key => stock key + 0
    simpa only [Int.add_zero] using hs
  | cons m moves ih =>
    obtain ⟨hm, hrest⟩ := List.forall_mem_cons.1 hmoves
    obtain ⟨hpaid, hnext⟩ := posts_of_isWhole hs hm
    obtain ⟨htotal, hlast⟩ := ih hnext hrest
    simp only [ledger_cons, List.map_cons, List.sum_cons, after_cons, ← Int.add_assoc]
    exact ⟨Int.add_nonneg hpaid htotal, hlast⟩

/-- **Gold and stock are conserved**: in any run of moves with whole amounts, whichever of them fail,
the gold is what it was plus all gifts and all payments, and at no later time less than at an earlier
one; under every key the party holds what it held plus all that was added minus all that was removed
and sold, and never less than nothing. -/
theorem gold_and_stock_are_conserved {gold : Int} {stock : Key → Int}
    (hs : s.game.party.Has gold stock) {moves : List Move} (hmoves : ∀ m ∈ moves, m.IsWhole) :
    (s.after moves).game.party.gold =
        .int (gold + ((s.ledger moves).map Posting.income).sum) ∧
      (∀ before rest, moves = before ++ rest → ∃ earlier later,
        (s.after before).game.party.gold = .int earlier ∧
          (s.after moves).game.party.gold = .int later ∧ gold ≤ earlier ∧ earlier ≤ later) ∧
      ∀ key, ∃ held,
        (s.after moves).game.party.inventory.held key = .whole held ∧ 0 ≤ held ∧
          held = stock key + ((s.ledger moves).map (Posting.added key)).sum -
            ((s.ledger moves).map (Posting.removed key)).sum -
            ((s.ledger moves).map (Posting.sold key)).sum := by
  obtain ⟨-, hlast⟩ := has_after hs hmoves
  refine ⟨hlast.gold, ?_, fun key => ⟨_, hlast.held key, hlast.nonneg key, ?_⟩⟩
  · intro before rest hsplit
    rw [hsplit] at hmoves
    obtain ⟨hbefore, hrest⟩ := List.forall_mem_append.1 hmoves
    obtain ⟨hfirst, hmiddle⟩ := has_after hs hbefore
    obtain ⟨hsecond, hlater⟩ := has_after hmiddle hrest
    refine ⟨_, _, hmiddle.gold, ?_, by omega, Int.le_add_of_nonneg_right hsecond⟩
    rw [hsplit, after_append]
    exact hlater.gold
  · rw [Posting.sum_change]
    omega

/-- Potions are traded in two shops: the second one is closed and opened again in between. A sale of
more than is left, one to a closed shop and a negative gift fail. -/
def tradingDay : List Move :=
  [.add Shop.potion (.int 3), .execute 0 Play.oneGood, .sell 0 Shop.potion (.int 2),
    .execute 0 Play.oneGood, .sell 1 Shop.potion (.int 2), .gainGold (.int (-1)), .pop,
    .sell 1 Shop.potion (.int 1), .push 1, .sell 1 Shop.potion (.int 1), .gainGold (.int 7),
    .add Shop.potion (.int (-2))]

/-- Three potions came in and went for two coins each, beside a gift of seven. -/
theorem tradingDay_is_conserved :
    ({ interpreters := [{}] } : Session).game.party.Has 0 (fun _ => 0) ∧
      (∀ m ∈ tradingDay, m.IsWhole) ∧
      (({ interpreters := [{}] } : Session).after tradingDay).game.party.gold = .int 13 ∧
      (({ interpreters := [{}] } : Session).after tradingDay).game.party.inventory.held
        ⟨.item, .int 1⟩ = .whole 0 := by
  have hempty : ({ interpreters := [{}] } : Session).game.party.Has 0 fun _ => 0 :=
    ⟨rfl, fun _ => rfl, fun _ => Int.le_refl 0⟩
  have hwhole : ∀ m ∈ tradingDay, m.IsWhole := by
    simp only [tradingDay, List.forall_mem_cons, List.not_mem_nil, false_implies, implies_true,
      and_true]
    exact ⟨.add _ _, .other rfl, .sell 0 rfl _, .other rfl, .sell 1 rfl _, .gainGold _,
      .other rfl, .sell 1 rfl _, .other rfl, .sell 1 rfl _, .gainGold _, .add _ _⟩
  obtain ⟨hgold, -, hstock⟩ := gold_and_stock_are_conserved hempty hwhole
  obtain ⟨held, hheld, -, heq⟩ := hstock ⟨.item, .int 1⟩
  refine ⟨hempty, hwhole, hgold.trans ?_, ?_⟩
  · decide +kernel
  · rw [hheld, heq]
    decide +kernel

end Session
end SellRules
