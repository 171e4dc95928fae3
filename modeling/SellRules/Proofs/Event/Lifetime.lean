import SellRules.Event.Session
import SellRules.Proofs.Event.Growth
import SellRules.Proofs.Event.HandOver
import SellRules.Proofs.Shop.Sale

/-!
# The lifetime of a shop's restrictions

A shop has the restrictions that it was made with until it is closed for the first time, and none
from then on, whatever else happens in the session. `Session.Turns` lists what one move can do to a
shop (`Session.turns_next`), `Session.Constructs` the moves that make one; `Session.exists_after`
carries a property of a shop that turns keep through any number of moves.
-/

set_option autoImplicit false

namespace SellRules

theorem Shop.Under.inCategory {r : Option RestrictionSet} {shop : Shop} (h : shop.Under r)
    (category : Option Category) : (shop.inCategory category).Under r := by
  refine ⟨h.1, fun list hlist => ?_⟩
  obtain ⟨old, hold, rfl⟩ := Option.map_eq_some_iff.1 hlist
  exact h.2 old hold

/-- A sell list under restrictions that turn an entry down does not sell it. -/
theorem Shop.Under.consider_eq_error {r : Option RestrictionSet} {shop : Shop} {entry : Entry}
    (h : shop.Under r) (hno : RestrictionSet.buys r entry = .ok false) :
    ∃ f, shop.consider entry = .error f := by
  cases hlist : shop.sellList with
  | none =>
    simp only [consider, hlist]
    exact ⟨_, rfl⟩
  | some list =>
    have hbuys : list.buys entry = .ok false := by rw [SellList.buys, h.2 list hlist, hno]
    by_cases honly : shop.purchaseOnly.truthy = true
    · simp only [consider, hlist, honly, ↓reduceIte]
      exact ⟨_, rfl⟩
    · simp only [consider, hlist, honly, SellList.isEnabled, hbuys]
      rcases SellList.isPriced entry with f | (_ | _)
      · exact ⟨_, rfl⟩
      · exact ⟨_, rfl⟩
      · exact ⟨_, rfl⟩

namespace Session

/-- The shop with a number. -/
def shop? (number : Nat) (s : Session) : Option Shop := s.game.stage.shop? number

/-- The session after a move. -/
def next (m : Move) (s : Session) : Session := ((perform m).perform s).2

/-- The session after moves. -/
def after (moves : List Move) (s : Session) : Session := (performAll moves s).2

@[simp] theorem after_cons (m : Move) (moves : List Move) (s : Session) :
    s.after (m :: moves) = (s.next m).after moves := rfl

theorem after_append (before rest : List Move) (s : Session) :
    s.after (before ++ rest) = (s.after before).after rest := by
  induction before generalizing s with
  | nil => rfl
  | cons m before ih => exact ih (s.next m)

/-- A move closes the shop with a number. -/
def Closes (m : Move) (number : Nat) (s : Session) : Prop :=
  m = .pop ∧ s.game.stage.current? = some number

/-- Moves one of which closes the shop with a number. -/
def ClosesIn (moves : List Move) (number : Nat) (s : Session) : Prop :=
  ∃ before rest, moves = before ++ .pop :: rest ∧ (s.after before).Closes .pop number

/-! ## Moves that leave the stage as it is -/

variable {α : Type}

theorem perform_shop (number : Nat) (s : Session) :
    (shop number).perform s =
      (match s.shop? number with | some shop => .ok shop | none => .error .noElement, s) := by
  simp only [shop, Action.perform_bind, Action.perform_get]
  show Action.perform (match s.shop? number with | some shop => _ | none => _) s = _
  cases s.shop? number <;> rfl

theorem perform_sellList (number : Nat) (s : Session) :
    (sellList number).perform s =
      (match (s.shop? number).bind (·.sellList) with
        | some list => .ok list
        | none => .error .noElement, s) := by
  rw [sellList, Action.perform_bind, perform_shop]
  cases s.shop? number with
  | none => rfl
  | some shop =>
    simp only [Option.bind_some]
    cases shop.sellList <;> rfl

/-- Looking for a shop or for its sell list changes nothing. -/
theorem keeps_shop (P : Session → Prop) (number : Nat) : Action.Keeps P (shop number) := by
  intro s h
  rw [perform_shop]
  exact h

theorem keeps_sellList (P : Session → Prop) (number : Nat) :
    Action.Keeps P (sellList number) := by
  intro s h
  rw [perform_sellList]
  exact h

/-- The game after an interpreter acted is the one that its action leaves. -/
theorem game_onInterpreter {number : Nat} {interpreter : Interpreter} {s : Session}
    (h : s.interpreters[number]? = some interpreter) (a : Action Play α) :
    ((onInterpreter number a).perform s).2.game = (a.perform ⟨interpreter, s.game⟩).2.game := by
  simp only [onInterpreter, Action.perform_bind, Action.perform_get, h, Action.perform_set,
    Action.perform_ofExcept]

theorem perform_onInterpreter_none {number : Nat} {s : Session}
    (h : s.interpreters[number]? = none) (a : Action Play α) :
    (onInterpreter number a).perform s = (.error .noElement, s) := by
  simp only [onInterpreter, Action.perform_bind, Action.perform_get, h, Action.perform_throw]

/-- An action of an interpreter keeps what it keeps of every play. -/
theorem keeps_onInterpreter {P : Stage → Prop} {a : Action Play α}
    (h : Action.Keeps (fun p => P p.game.stage) a) (number : Nat) :
    Action.Keeps (fun s => P s.game.stage) (onInterpreter number a) := by
  intro s hs
  cases hi : s.interpreters[number]? with
  | none =>
    rw [perform_onInterpreter_none hi]
    exact hs
  | some interpreter =>
    show P ((onInterpreter number a).perform s).2.game.stage
    rw [game_onInterpreter hi]
    exact h ⟨interpreter, s.game⟩ hs

end Session

/-- The moves that leave the stage as it is: those of the party, those that only look, and those of
interpreters that carry out no command. -/
def Session.Move.isOffStage : Session.Move → Bool
  | .run _ | .execute _ _ | .category _ _ | .create _ | .push _ | .pop => false
  | _ => true

namespace Session

/-- Those moves keep every property of the stage. -/
theorem keeps_isOffStage {m : Move} (h : m.isOffStage = true) (P : Stage → Prop) :
    Action.Keeps (fun s => P s.game.stage) (perform m) := by
  have party {α : Type} (a : Action Party α) :
    Action.Keeps (fun s : Session => P s.game.stage) (onParty a) := fun _ h => h
  cases m with
  | setup i commands eventId =>
    exact (keeps_onInterpreter (a := Play.setup commands eventId) (fun _ h => h) i).bind
      fun _ => Action.keeps_pure _
  | declare i r =>
    exact (keeps_onInterpreter (a := Play.onRegistry (Registry.declare r)) (fun _ h => h) i).bind
      fun _ => Action.keeps_pure _
  | consume i =>
    exact (keeps_onInterpreter (a := Play.onRegistry Registry.consume) (fun _ h => h) i).bind
      fun _ => Action.keeps_pure _
  | battle inBattle => exact (party _).bind fun _ => Action.keeps_pure _
  | gainGold amount =>
    exact (Action.keeps_ofExcept _).bind fun _ => (party _).bind fun _ => Action.keeps_pure _
  | add entry amount =>
    exact (Action.keeps_ofExcept _).bind fun _ => (party _).bind fun _ => Action.keeps_pure _
  | remove entry amount =>
    exact (Action.keeps_ofExcept _).bind fun _ => (party _).bind fun _ => Action.keeps_pure _
  | quantity entry =>
    exact Action.keeps_get.bind fun _ => (Action.keeps_ofExcept _).bind fun _ => Action.keeps_pure _
  | sell number entry amount =>
    exact (keeps_shop _ number).bind fun _ => (party _).bind fun _ => Action.keeps_pure _
  | enabled number =>
    exact (keeps_sellList _ number).bind fun _ => Action.keeps_get.bind fun _ =>
      (Action.keeps_ofExcept _).bind fun _ => Action.keeps_pure _
  | run | execute | category | create | push | pop => cases h

theorem stage_next_of_isOffStage {m : Move} (h : m.isOffStage = true) (s : Session) :
    (s.next m).game.stage = s.game.stage :=
  keeps_isOffStage h (· = s.game.stage) s rfl

/-! ## Moves on the stage -/

theorem shop?_next_push (number : Nat) (s : Session) (k : Nat) :
    (s.next (.push number)).shop? k =
      if number = k then (s.shop? k).map Shop.pushed else s.shop? k := by
  simp only [next, perform, Action.perform_bind, Action.perform_get]
  by_cases hscene : (s.game.stage.scene? number).isNone = true
  · have hshop : s.shop? number = none := by
      rw [shop?, Stage.shop?, Option.isNone_iff_eq_none.1 hscene]
      rfl
    simp only [hscene, ↓reduceIte, Action.perform_bind, Action.perform_throw]
    split
    next h => rw [← h, hshop]; rfl
    next => rfl
  · have hpush := Stage.shop?_push number s.game.stage k
    simp only [hscene, Bool.false_eq_true, ↓reduceIte, onStage, Game.onStage, Action.perform_bind,
      Action.perform_within]
    cases hq : (Stage.push number).perform s.game.stage with
    | mk answer stage =>
      rw [hq] at hpush
      cases answer <;> exact hpush

theorem shop?_next_pop (s : Session) (k : Nat) :
    (s.next .pop).shop? k =
      if s.game.stage.current? = some k then (s.shop? k).map Shop.leave else s.shop? k := by
  have hpop := Stage.shop?_pop s.game.stage k
  simp only [next, perform, Action.perform_bind, onStage, Game.onStage, Action.perform_within]
  cases hq : Stage.pop.perform s.game.stage with
  | mk answer stage =>
    rw [hq] at hpop
    cases answer <;> exact hpop

/-- Choosing a category changes nothing but the category of the sell list. -/
theorem shop?_next_category (number : Nat) (v : Value) (s : Session) (k : Nat) :
    (s.next (.category number v)).shop? k = s.shop? k ∨
      number = k ∧ ∃ category,
        (s.next (.category number v)).shop? k = (s.shop? k).map (Shop.inCategory category) := by
  simp only [next, perform, Action.perform_bind, perform_sellList]
  cases hlist : (s.shop? number).bind (·.sellList) with
  | none => exact .inl rfl
  | some list =>
    simp only [Action.perform_ofExcept]
    cases Category.ofValue v with
    | error f => exact .inl rfl
    | ok category =>
      have hshop := Stage.shop?_updateShop number
        (fun shop => { shop with sellList := some { list with category } }) s.game.stage k
      by_cases hk : number = k
      · obtain ⟨shop, hfound, hopen⟩ := Option.bind_eq_some_iff.1 hlist
        refine .inr ⟨hk, category, ?_⟩
        rw [if_pos hk] at hshop
        rw [← hk] at hshop ⊢
        refine hshop.trans ?_
        show (s.shop? number).map _ = _
        rw [hfound, Option.map_some, Option.map_some, Shop.inCategory, hopen]
        rfl
      · rw [if_neg hk] at hshop
        exact .inl hshop

/-- Commands that an interpreter carries out keep the scenes that are there. -/
theorem scenes_next_execute (i : Nat) (c : Command) (s : Session) :
    s.game.stage.scenes <+: (s.next (.execute i c)).game.stage.scenes := by
  have hexecute : Action.Keeps (fun p => s.game.stage.scenes <+: p.game.stage.scenes)
    (Play.execute c) := fun p h => h.trans (Play.scenes_execute p c)
  have hmove := (keeps_onInterpreter (P := fun stage => s.game.stage.scenes <+: stage.scenes)
    hexecute i).bind fun _ => Action.keeps_pure Reply.done
  exact hmove s List.prefix_rfl

theorem scenes_next_run (i : Nat) (s : Session) :
    s.game.stage.scenes <+: (s.next (.run i)).game.stage.scenes := by
  have hrun : Action.Keeps (fun p => s.game.stage.scenes <+: p.game.stage.scenes) Play.run := by
    intro p h
    rw [Play.perform_run]
    exact h.trans (Play.scenes_runFor _ p)
  have hmove := (keeps_onInterpreter (P := fun stage => s.game.stage.scenes <+: stage.scenes)
    hrun i).bind fun _ => Action.keeps_pure Reply.done
  exact hmove s List.prefix_rfl

/-! ## Turns -/

/-- What a move can do to the shop with a number. -/
inductive Turns (s : Session) (number : Nat) : Move → Shop → Shop → Prop
  | kept {m : Move} {shop : Shop} (stays : ¬ s.Closes m number) : Turns s number m shop shop
  | pushed {shop : Shop} : Turns s number (.push number) shop shop.pushed
  | moved {shop : Shop} (v : Value) (category : Option Category) :
      Turns s number (.category number v) shop (shop.inCategory category)
  | left {shop : Shop} (closes : s.Closes .pop number) : Turns s number .pop shop shop.leave

theorem turns_of_scenes {m : Move} {number : Nat} {s : Session} {shop : Shop}
    (h : s.game.stage.scenes <+: (s.next m).game.stage.scenes) (hm : m ≠ .pop)
    (hshop : s.shop? number = some shop) :
    ∃ later, (s.next m).shop? number = some later ∧ s.Turns number m shop later :=
  ⟨shop, Stage.shop?_of_prefix h hshop, .kept fun hcloses => hm hcloses.1⟩

/-- A shop that is there is there after a move, as the move turns it. -/
theorem turns_next {m : Move} {number : Nat} {s : Session} {shop : Shop}
    (hshop : s.shop? number = some shop) :
    ∃ later, (s.next m).shop? number = some later ∧ s.Turns number m shop later := by
  by_cases hoff : m.isOffStage = true
  · refine turns_of_scenes ?_ (by rintro rfl; cases hoff) hshop
    rw [stage_next_of_isOffStage hoff]
  cases m with
  | run i => exact turns_of_scenes (scenes_next_run i s) (by simp) hshop
  | execute i c => exact turns_of_scenes (scenes_next_execute i c s) (by simp) hshop
  | create scene => exact turns_of_scenes (List.prefix_append _ _) (by simp) hshop
  | push k =>
    have hstays : ¬ s.Closes (.push k) number := fun h => by cases h.1
    have hnext := shop?_next_push k s number
    rw [hshop] at hnext
    split at hnext
    next h =>
      rw [h] at hnext ⊢
      exact ⟨_, hnext, .pushed⟩
    next => exact ⟨_, hnext, .kept hstays⟩
  | category k v =>
    have hstays : ¬ s.Closes (.category k v) number := fun h => by cases h.1
    rcases shop?_next_category k v s number with hnext | ⟨rfl, category, hnext⟩
    · exact ⟨shop, hnext.trans hshop, .kept hstays⟩
    · rw [hshop] at hnext
      exact ⟨_, hnext, .moved v category⟩
  | pop =>
    have hnext := shop?_next_pop s number
    rw [hshop] at hnext
    split at hnext
    next h => exact ⟨_, hnext, .left ⟨rfl, h⟩⟩
    next h => exact ⟨_, hnext, .kept fun hcloses => h hcloses.2⟩
  | setup | declare | consume | battle | gainGold | add | remove | quantity | sell | enabled =>
    exact absurd rfl hoff

/-- A property of the shop with a number that the turns of all moves keep lasts. -/
theorem exists_after {P : Shop → Prop} {number : Nat} {moves : List Move} {s : Session}
    (hshop : ∃ shop, s.shop? number = some shop ∧ P shop)
    (hturns : ∀ before m rest shop later, moves = before ++ m :: rest →
      (s.after before).Turns number m shop later → P shop → P later) :
    ∃ shop, (s.after moves).shop? number = some shop ∧ P shop := by
  induction moves generalizing s with
  | nil => exact hshop
  | cons m moves ih =>
    obtain ⟨shop, hfound, hP⟩ := hshop
    obtain ⟨later, hlater, hturn⟩ := turns_next (m := m) hfound
    refine ih ⟨later, hlater, hturns [] m moves shop later rfl hturn hP⟩ ?_
    intro before m' rest shop later heq
    exact hturns (m :: before) m' rest shop later (by rw [heq]; rfl)

/-- A shop that is there stays there. -/
theorem exists_shop?_after {number : Nat} {s : Session} {shop : Shop}
    (hshop : s.shop? number = some shop) (moves : List Move) :
    ∃ shop, (s.after moves).shop? number = some shop := by
  have hafter : ∃ shop, (s.after moves).shop? number = some shop ∧ True :=
    exists_after ⟨shop, hshop, trivial⟩ fun _ _ _ _ _ _ _ _ => trivial
  obtain ⟨later, hlater, -⟩ := hafter
  exact ⟨later, hlater⟩

/-! ## Under restrictions, and closed -/

/-- Until it is closed a shop stays under its restrictions. -/
theorem exists_under_after {r : Option RestrictionSet} {number : Nat} {moves : List Move}
    {s : Session} (hshop : ∃ shop, s.shop? number = some shop ∧ shop.Under r)
    (hopen : ¬ s.ClosesIn moves number) :
    ∃ shop, (s.after moves).shop? number = some shop ∧ shop.Under r := by
  refine exists_after hshop fun before m rest shop later heq hturn hunder => ?_
  cases hturn with
  | kept _ => exact hunder
  | pushed => exact hunder.pushed
  | moved _ category => exact hunder.inCategory category
  | left hcloses => exact absurd ⟨before, rest, heq, hcloses⟩ hopen

/-- A shop without restrictions never gets any. -/
theorem exists_under_none_after {number : Nat} {moves : List Move} {s : Session}
    (hshop : ∃ shop, s.shop? number = some shop ∧ shop.Under none) :
    ∃ shop, (s.after moves).shop? number = some shop ∧ shop.Under none := by
  refine exists_after hshop fun _ _ _ shop _ _ hturn hunder => ?_
  cases hturn with
  | kept _ => exact hunder
  | pushed => exact hunder.pushed
  | moved _ category => exact hunder.inCategory category
  | left _ => exact shop.under_leave

/-- A closed shop stays closed until it is pushed. -/
theorem exists_closed_after {number : Nat} {moves : List Move} {s : Session}
    (hshop : ∃ shop, s.shop? number = some shop ∧ shop.sellList = none)
    (hpush : .push number ∉ moves) :
    ∃ shop, (s.after moves).shop? number = some shop ∧ shop.sellList = none := by
  refine exists_after hshop fun _ _ _ shop _ heq hturn hclosed => ?_
  cases hturn with
  | kept _ => exact hclosed
  | pushed => simp [heq] at hpush
  | moved _ category => rw [Shop.inCategory, hclosed]; rfl
  | left _ => rfl

/-- Closing a shop leaves it without restrictions and without a sell list. -/
theorem exists_left_of_closes {number : Nat} {s : Session} {shop : Shop}
    (hshop : s.shop? number = some shop) (hcloses : s.Closes .pop number) :
    ∃ shop, (s.next .pop).shop? number = some shop ∧ shop.Under none ∧ shop.sellList = none := by
  refine ⟨shop.leave, ?_, shop.under_leave, rfl⟩
  rw [shop?_next_pop, if_pos hcloses.2, hshop]
  rfl

/-! ## Moves that make a shop -/

/-- A move makes the shop with a number under restrictions: those that it is created with, or those
that wait when an interpreter comes to a command that opens a shop. -/
inductive Constructs (s : Session) : Move → Nat → Option RestrictionSet → Prop
  | created {shop : Shop} {managed : Bool} (closed : shop.sellList = none) :
      Constructs s (.create { shop := some shop, managed }) s.game.stage.scenes.length
        shop.restrictions
  | executed {i : Nat} {interpreter : Interpreter} {c : Command}
      (player : s.interpreters[i]? = some interpreter)
      (opens : Play.Opens ⟨interpreter, s.game⟩ c) :
      Constructs s (.execute i c) s.game.stage.scenes.length interpreter.registry.pending
  | ran {i number : Nat} {interpreter : Interpreter} {r : Option RestrictionSet}
      (player : s.interpreters[i]? = some interpreter)
      (makes : Play.Makes (interpreter.commands.length - interpreter.position)
        ⟨interpreter, s.game⟩ number r) :
      Constructs s (.run i) number r

theorem game_next_execute {i : Nat} {interpreter : Interpreter} {s : Session}
    (h : s.interpreters[i]? = some interpreter) (c : Command) :
    (s.next (.execute i c)).game = ((Play.execute c).perform ⟨interpreter, s.game⟩).2.game := by
  rw [← game_onInterpreter h, next, perform, Action.perform_bind]
  split
  next heq => rw [heq]; rfl
  next heq => rw [heq]

theorem game_next_run {i : Nat} {interpreter : Interpreter} {s : Session}
    (h : s.interpreters[i]? = some interpreter) :
    (s.next (.run i)).game = (Play.run.perform ⟨interpreter, s.game⟩).2.game := by
  rw [← game_onInterpreter h, next, perform, Action.perform_bind]
  split
  next heq => rw [heq]; rfl
  next heq => rw [heq]

/-- A shop that a move makes is there after the move, under its restrictions. -/
theorem Constructs.exists_under {s : Session} {m : Move} {number : Nat}
    {r : Option RestrictionSet} (h : s.Constructs m number r) :
    ∃ shop, (s.next m).shop? number = some shop ∧ shop.Under r := by
  cases h with
  | @created shop managed closed =>
    refine ⟨shop, ?_, rfl, by simp [closed]⟩
    have hnext := Stage.shop?_create { shop := some shop, managed } s.game.stage
      s.game.stage.scenes.length
    rwa [if_pos rfl] at hnext
  | executed player opens =>
    rw [shop?, game_next_execute player]
    exact Play.shop?_execute_of_opens opens
  | ran player makes =>
    rw [shop?, game_next_run player, Play.perform_run]
    exact makes.shop?

/-- No other move makes a shop: shops that are created have no sell list yet, and then every shop
that is there after a move and was not before was made by it. -/
theorem exists_constructs {s : Session} {m : Move} {number : Nat} {shop : Shop}
    (hclosed : ∀ scene, m = .create scene → ∀ shop ∈ scene.shop, shop.sellList = none)
    (hbefore : s.shop? number = none) (hafter : (s.next m).shop? number = some shop) :
    ∃ r, s.Constructs m number r := by
  by_cases hoff : m.isOffStage = true
  · rw [shop?, stage_next_of_isOffStage hoff] at hafter
    cases hbefore.symm.trans hafter
  cases m with
  | create scene =>
    have hnext := Stage.shop?_create scene s.game.stage number
    replace hnext := hnext.symm.trans hafter
    split at hnext
    next h =>
      obtain ⟨made, managed⟩ := scene
      cases hnext
      rw [h]
      exact ⟨_, .created (hclosed _ rfl shop rfl)⟩
    next => cases hbefore.symm.trans hnext
  | execute i c =>
    cases hi : s.interpreters[i]? with
    | none =>
      simp only [next, perform, Action.perform_bind, perform_onInterpreter_none hi] at hafter
      cases hbefore.symm.trans hafter
    | some interpreter =>
      rw [shop?, game_next_execute hi] at hafter
      obtain ⟨hopens, rfl⟩ :=
        Play.opens_of_shop?_execute (p := ⟨interpreter, s.game⟩) hbefore hafter
      exact ⟨_, .executed hi hopens⟩
  | run i =>
    cases hi : s.interpreters[i]? with
    | none =>
      simp only [next, perform, Action.perform_bind, perform_onInterpreter_none hi] at hafter
      cases hbefore.symm.trans hafter
    | some interpreter =>
      rw [shop?, game_next_run hi, Play.perform_run] at hafter
      obtain ⟨r, hr⟩ := Play.exists_makes (p := ⟨interpreter, s.game⟩) hbefore hafter
      exact ⟨r, .ran hi hr⟩
  | push k =>
    rw [shop?_next_push, hbefore] at hafter
    split at hafter <;> cases hafter
  | pop =>
    rw [shop?_next_pop, hbefore] at hafter
    split at hafter <;> cases hafter
  | category k v =>
    rcases shop?_next_category k v s number with hnext | ⟨-, category, hnext⟩
    · cases hbefore.symm.trans (hnext.symm.trans hafter)
    · rw [hbefore] at hnext
      cases hnext.symm.trans hafter
  | setup | declare | consume | battle | gainGold | add | remove | quantity | sell | enabled =>
    exact absurd rfl hoff

/-! ## Sales during the lifetime -/

/-- What a sale to a shop answers is what the shop answers to the party. -/
theorem perform_sell {number : Nat} {s : Session} {shop : Shop}
    (hshop : s.shop? number = some shop) {entry : Entry} {f : Failure}
    (h : shop.consider entry = .error f) (amount : Value) :
    (perform (.sell number entry amount)).perform s = (.error f, s) := by
  simp only [perform, Action.perform_bind, perform_shop, hshop, onParty, Game.onParty,
    Action.perform_within, Shop.perform_sell_of_consider_error h]

/-- **A shop keeps its restrictions until it is closed for the first time, and has none from then
on.** Every shop that a move adds was constructed by it, and for every construction, whatever moves
follow: as long as none of them closes the shop, it and its sell list are under the restrictions of
the construction, and an entry that these turn down is never sold; once one of them has closed it,
its restrictions are gone; and until it is pushed again it is closed to every sale. -/
theorem restrictions_last_until_closed (s : Session) (m : Move) :
    ((∀ scene, m = .create scene → ∀ shop ∈ scene.shop, shop.sellList = none) →
      ∀ number shop, s.shop? number = none → (s.next m).shop? number = some shop →
        ∃ r, s.Constructs m number r) ∧
    ∀ number r, s.Constructs m number r → ∀ moves, ∃ shop,
      ((s.next m).after moves).shop? number = some shop ∧
      (¬ (s.next m).ClosesIn moves number →
        shop.restrictions = r ∧ (∀ list ∈ shop.sellList, list.restrictions = r) ∧
        ∀ entry, RestrictionSet.buys r entry = .ok false → ∀ amount reply,
          ((perform (.sell number entry amount)).perform ((s.next m).after moves)).1 ≠
            .ok reply) ∧
      ((s.next m).ClosesIn moves number → shop.restrictions = none) ∧
      ∀ before rest, moves = before ++ .pop :: rest →
        ((s.next m).after before).Closes .pop number → .push number ∉ rest →
        shop.sellList = none ∧ ∀ entry amount,
          (perform (.sell number entry amount)).perform ((s.next m).after moves) =
            (.error (.rejected .closed), (s.next m).after moves) := by
  refine ⟨fun hclosed number shop => exists_constructs hclosed, fun number r hmade moves => ?_⟩
  obtain ⟨made, hfound, hunder⟩ := hmade.exists_under
  obtain ⟨shop, hshop⟩ := exists_shop?_after hfound moves
  -- What holds of some shop with the number holds of this one.
  have hthis {P : Shop → Prop}
      (h : ∃ shop, ((s.next m).after moves).shop? number = some shop ∧ P shop) : P shop := by
    obtain ⟨other, hother, hP⟩ := h
    cases hshop.symm.trans hother
    exact hP
  have hleft {before rest : List Move} (hmoves : moves = before ++ .pop :: rest)
      (hcloses : ((s.next m).after before).Closes .pop number) :
      (s.next m).after moves = (((s.next m).after before).next .pop).after rest ∧
      ∃ left, (((s.next m).after before).next .pop).shop? number = some left ∧
        left.Under none ∧ left.sellList = none := by
    refine ⟨by rw [hmoves, after_append, after_cons], ?_⟩
    obtain ⟨there, hthere⟩ := exists_shop?_after hfound before
    exact exists_left_of_closes hthere hcloses
  refine ⟨shop, hshop, fun hopen => ?_, ?_, fun before rest hmoves hcloses hpush => ?_⟩
  · have hunder := hthis (exists_under_after ⟨made, hfound, hunder⟩ hopen)
    refine ⟨hunder.1, hunder.2, fun entry hno amount reply => ?_⟩
    obtain ⟨f, hf⟩ := hunder.consider_eq_error hno
    rw [perform_sell hshop hf]
    exact nofun
  · rintro ⟨before, rest, hmoves, hcloses⟩
    obtain ⟨hafter, left, hfound, hnone, -⟩ := hleft hmoves hcloses
    rw [hafter] at hthis
    exact (hthis (exists_under_none_after ⟨left, hfound, hnone⟩)).1
  · obtain ⟨hafter, left, hfound, -, hclosed⟩ := hleft hmoves hcloses
    have hlist : shop.sellList = none := by
      rw [hafter] at hthis
      exact hthis (exists_closed_after ⟨left, hfound, hclosed⟩ hpush)
    refine ⟨hlist, fun entry amount => perform_sell hshop ?_ amount⟩
    simp only [Shop.consider, hlist]
    rfl

/-- Two interpreters share a game, and the first has declared item 1. -/
def itemDeclared : Session :=
  ({ interpreters := [{}, {}] } : Session).after [.declare 0 (some Play.itemOne)]

/-- The shop of the first interpreter does not buy item 2 while the second one opens a shop above
it. When both were closed it has no restrictions and buys nothing. -/
theorem shop_under_item_one_until_closed :
    (∃ shop, ((itemDeclared.next (.execute 0 Play.oneGood)).after
        [.execute 1 Play.oneGood]).shop? 0 = some shop ∧
      shop.restrictions = some Play.itemOne ∧
      ∀ amount reply, ((perform (.sell 0 { Shop.potion with id := .int 2 } amount)).perform
        ((itemDeclared.next (.execute 0 Play.oneGood)).after [.execute 1 Play.oneGood])).1 ≠
          .ok reply) ∧
    ∃ shop, ((itemDeclared.next (.execute 0 Play.oneGood)).after
        [.execute 1 Play.oneGood, .pop, .pop]).shop? 0 = some shop ∧
      shop.restrictions = none ∧ shop.sellList = none := by
  obtain ⟨-, hlife⟩ := restrictions_last_until_closed itemDeclared (.execute 0 Play.oneGood)
  have hplayer : itemDeclared.interpreters[0]? =
      some { registry := { pending := some Play.itemOne } } := by decide +kernel
  have hmade : itemDeclared.Constructs (.execute 0 Play.oneGood) 0 (some Play.itemOne) :=
    .executed hplayer ⟨rfl, by decide +kernel, _, rfl⟩
  constructor
  · obtain ⟨shop, hshop, hopen, -⟩ := hlife 0 _ hmade [.execute 1 Play.oneGood]
    obtain ⟨hrestrictions, -, hsale⟩ := hopen fun ⟨before, rest, heq, _⟩ => by
      have hmem : Move.pop ∈ [Move.execute 1 Play.oneGood] := by rw [heq]; simp
      simp at hmem
    exact ⟨shop, hshop, hrestrictions, hsale _ (by decide +kernel)⟩
  · obtain ⟨shop, hshop, -, hclosed, hlast⟩ :=
      hlife 0 _ hmade [.execute 1 Play.oneGood, .pop, .pop]
    have hcloses : ((itemDeclared.next (.execute 0 Play.oneGood)).after
      [.execute 1 Play.oneGood, .pop]).Closes .pop 0 := ⟨rfl, by decide +kernel⟩
    exact ⟨shop, hshop, hclosed ⟨[.execute 1 Play.oneGood, .pop], [], rfl, hcloses⟩,
      (hlast [.execute 1 Play.oneGood, .pop] [] rfl hcloses (by simp)).1⟩

end Session
end SellRules
