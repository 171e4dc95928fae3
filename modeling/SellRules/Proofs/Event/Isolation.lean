import SellRules.Proofs.Event.Lifetime
import SellRules.Proofs.Event.Reach

/-!
# Interpreters do not interfere

Interpreters share the party and the stage, and yet what one of them does is a matter of its own moves
and of the battle alone. `Session.Acts` says what an own move of an interpreter does to the session;
`Session.exists_acts` that two sessions which look the same to the interpreter (`Session.Alike`) are
moved on in the same way, and `Session.alike_next_of_not_concerns` that no other move changes how a
session looks to it. The law itself compares a run of moves with the run from which all moves of no
concern to the interpreter are left out.
-/

set_option autoImplicit false

namespace SellRules

namespace Session

/-! ## Own moves -/

/-- The interpreter that makes a move, if one does. -/
def Move.maker : Move → Option Nat
  | .setup i _ _ | .run i | .execute i _ | .declare i _ | .consume i => some i
  | _ => none

/-- Whether a move is of concern to an interpreter: one that it makes, or a change of the battle. -/
def Move.concerns (i : Nat) : Move → Bool
  | .battle _ => true
  | m => m.maker = some i

/-- The moves by which the party trades. -/
def Move.isTrade : Move → Bool
  | .gainGold _ | .add _ _ | .remove _ _ | .sell _ _ _ => true
  | _ => false

theorem Move.concerns_iff {i : Nat} {m : Move} :
    m.concerns i = true ↔ m.maker = some i ∨ ∃ v, m = .battle v := by
  cases m <;> simp [Move.concerns, Move.maker]

/-- What an own move of an interpreter brings about. -/
structure Turn where
  move : Move
  reply : Except Failure Reply
  /-- The shops that it opens, the oldest first. -/
  opened : List Shop
  /-- The interpreter afterwards, with the restrictions that wait. -/
  interpreter : Option Interpreter
  deriving DecidableEq

/-- The turn of an interpreter: what its move answers and leaves. The shops that the move opens are
those behind the scenes that were there. -/
def turn (i : Nat) (m : Move) (s : Session) : Turn where
  move := m
  reply := ((perform m).perform s).1
  opened := ((s.next m).game.stage.scenes.drop s.game.stage.scenes.length).filterMap (·.shop)
  interpreter := (s.next m).interpreters[i]?

/-- The turns of an interpreter in a run of moves. -/
def turns (i : Nat) : List Move → Session → List Turn
  | [], _ => []
  | m :: moves, s =>
    if m.maker = some i then s.turn i m :: turns i moves (s.next m) else turns i moves (s.next m)

/-- Two sessions that look the same to an interpreter. -/
structure Alike (i : Nat) (s t : Session) : Prop where
  interpreter : s.interpreters[i]? = t.interpreters[i]?
  inBattle : s.game.party.inBattle = t.game.party.inBattle

/-- What an own move of an interpreter does: it answers, opens shops and leaves the interpreter. The
party, the scenes that are there and the other interpreters stay as they are. -/
structure Acts (i : Nat) (m : Move) (reply : Except Failure Reply) (opened : List Shop)
    (interpreter : Option Interpreter) (s : Session) : Prop where
  reply : ((perform m).perform s).1 = reply
  game : (s.next m).game = { s.game with stage := s.game.stage.grown opened }
  own : (s.next m).interpreters[i]? = interpreter
  others : ∀ j, j ≠ i → (s.next m).interpreters[j]? = s.interpreters[j]?

variable {α : Type} {i : Nat} {m : Move} {s t : Session}

theorem perform_onInterpreter {interpreter : Interpreter}
    (h : s.interpreters[i]? = some interpreter) (a : Action Play α) :
    (onInterpreter i a).perform s =
      let outcome := a.perform ⟨interpreter, s.game⟩
      (outcome.1, { s with
        game := outcome.2.game
        interpreters := s.interpreters.set i outcome.2.interpreter }) := by
  simp only [onInterpreter, Action.perform_bind, Action.perform_get, h, Action.perform_set,
    Action.perform_ofExcept]

/-- An own move lets the interpreter carry out a local action. -/
theorem exists_local_of_maker (h : m.maker = some i) :
    ∃ (α : Type) (a : Action Play α) (reply : α → Reply),
      Play.Local a ∧ perform m = do return reply (← onInterpreter i a) := by
  cases m with
  | setup j commands eventId =>
    cases h
    exact ⟨_, _, fun _ => .done, Play.local_setup commands eventId, rfl⟩
  | run j =>
    cases h
    exact ⟨_, _, fun _ => .done, Play.local_run, rfl⟩
  | execute j c =>
    cases h
    exact ⟨_, _, fun _ => .done, Play.local_execute c, rfl⟩
  | declare j r =>
    cases h
    exact ⟨_, _, fun _ => .done, Play.local_onRegistry (Registry.declare r), rfl⟩
  | consume j =>
    cases h
    exact ⟨_, _, .restrictions, Play.local_onRegistry Registry.consume, rfl⟩
  | battle | gainGold | add | remove | quantity | sell | enabled | category | create | push | pop =>
    cases h

/-- An own move does the same in sessions that look the same to the interpreter. -/
theorem exists_acts (h : m.maker = some i) (hst : Alike i s t) :
    ∃ reply opened interpreter,
      Acts i m reply opened interpreter s ∧ Acts i m reply opened interpreter t := by
  obtain ⟨α, a, reply, hlocal, hperform⟩ := exists_local_of_maker h
  have hreply (u : Session) : (perform m).perform u =
      (reply <$> ((onInterpreter i a).perform u).1, ((onInterpreter i a).perform u).2) := by
    rw [hperform, Action.perform_bind]
    cases (onInterpreter i a).perform u with
    | mk answer v => cases answer <;> rfl
  cases hi : s.interpreters[i]? with
  | none =>
    have hacts {u : Session} (hu : u.interpreters[i]? = none) :
        Acts i m (.error .noElement) [] none u := by
      have hnext := hreply u
      rw [perform_onInterpreter_none hu] at hnext
      have hsame : u.next m = u := congrArg Prod.snd hnext
      refine ⟨congrArg Prod.fst hnext, ?_, ?_, ?_⟩
      · rw [hsame, Stage.grown_nil]
      · rw [hsame, hu]
      · intro j _
        rw [hsame]
    exact ⟨_, _, _, hacts hi, hacts (hst.interpreter ▸ hi)⟩
  | some interpreter =>
    obtain ⟨answer, later, more, hs, ht⟩ :=
      hlocal ⟨interpreter, s.game⟩ ⟨interpreter, t.game⟩ ⟨rfl, hst.inBattle⟩
    have hacts {u : Session} (hu : u.interpreters[i]? = some interpreter)
        (hplay : a.perform ⟨interpreter, u.game⟩ =
          (answer, Play.reached later more ⟨interpreter, u.game⟩)) :
        Acts i m (reply <$> answer) more (some later) u := by
      have hnext := hreply u
      rw [perform_onInterpreter hu, hplay] at hnext
      have hsame : u.next m = { u with
          game := { u.game with stage := u.game.stage.grown more }
          interpreters := u.interpreters.set i later } := congrArg Prod.snd hnext
      obtain ⟨hlt, -⟩ := List.getElem?_eq_some_iff.1 hu
      refine ⟨congrArg Prod.fst hnext, ?_, ?_, ?_⟩
      · rw [hsame]
      · rw [hsame, List.getElem?_set_self hlt]
      · intro j hj
        rw [hsame, List.getElem?_set_ne (Ne.symm hj)]
    exact ⟨_, _, _, hacts hi hs, hacts (hst.interpreter ▸ hi) ht⟩

theorem Alike.refl (i : Nat) (s : Session) : Alike i s s := ⟨rfl, rfl⟩

theorem Alike.trans {u : Session} (hst : Alike i s t) (htu : Alike i t u) : Alike i s u :=
  ⟨hst.interpreter.trans htu.interpreter, hst.inBattle.trans htu.inBattle⟩

theorem Acts.turn_eq {reply : Except Failure Reply} {opened : List Shop}
    {interpreter : Option Interpreter} (h : Acts i m reply opened interpreter s) :
    s.turn i m = ⟨m, reply, opened, interpreter⟩ := by
  have hshops : (opened.map Shop.onStage).filterMap (·.shop) = opened := by
    rw [List.filterMap_map]
    exact List.filterMap_some
  rw [turn, h.reply, h.game, h.own, Stage.scenes_grown, List.drop_left, hshops]

/-- An own move is the same turn in sessions that look the same, and they go on looking the same. -/
theorem turn_eq_of_alike (h : m.maker = some i) (hst : Alike i s t) :
    s.turn i m = t.turn i m ∧ Alike i (s.next m) (t.next m) := by
  obtain ⟨reply, opened, interpreter, hs, ht⟩ := exists_acts h hst
  refine ⟨?_, ?_, ?_⟩
  · rw [hs.turn_eq, ht.turn_eq]
  · rw [hs.own, ht.own]
  · rw [hs.game, ht.game]
    exact hst.inBattle

/-! ## Other moves -/

/-- Trade does not change whether there is a battle. -/
theorem keeps_inBattle_add (entry : Entry) (amount : Amount) (b : Value) :
    Action.Keeps (fun party : Party => party.inBattle = b) (Party.add entry amount) :=
  Party.keeps_add fun _ _ h _ => h

theorem keeps_inBattle_remove (entry : Entry) (amount : Amount) (b : Value) :
    Action.Keeps (fun party : Party => party.inBattle = b) (Party.remove entry amount) :=
  Party.keeps_remove fun _ _ h _ => h

/-- A gift changes nothing but the gold. -/
theorem keeps_gainGold (P : Inventory → Value → Prop) (amount : Amount) :
    Action.Keeps (fun party : Party => P party.inventory party.inBattle)
      (Party.gainGold amount) := by
  intro party h
  simp only [Party.gainGold]
  split
  · exact h
  · simp only [Action.perform_bind, Action.perform_get, Action.perform_ofExcept]
    cases Amount.ofValue party.gold with
    | error f => exact h
    | ok gold =>
      simp only
      cases gold.add amount with
      | error f => exact h
      | ok total => exact h

theorem keeps_inBattle_sell (shop : Shop) (entry : Entry) (amount b : Value) :
    Action.Keeps (fun party : Party => party.inBattle = b) (shop.sell entry amount) := by
  refine (Action.keeps_ofExcept _).bind fun _ => ?_
  refine (Action.keeps_ofExcept _).bind fun amount => ?_
  refine (keeps_inBattle_remove entry amount b).bind fun _ => ?_
  refine (Action.keeps_ofExcept _).bind fun gold => ?_
  exact (keeps_gainGold (fun _ inBattle => inBattle = b) gold).bind fun _ => Action.keeps_pure gold

/-- Looks at the party and at shops, and moves of scenes, change no interpreter and leave the party as
it is. -/
theorem keeps_of_not_trade (hm : m.maker = none) (hbattle : ∀ v, m ≠ .battle v)
    (htrade : m.isTrade = false) (P : List Interpreter → Party → Prop) :
    Action.Keeps (fun s : Session => P s.interpreters s.game.party) (perform m) := by
  have stage {α : Type} (a : Action Stage α) :
      Action.Keeps (fun s : Session => P s.interpreters s.game.party) (onStage a) := fun _ h => h
  cases m with
  | battle v => exact absurd rfl (hbattle v)
  | quantity entry =>
    exact Action.keeps_get.bind fun _ => (Action.keeps_ofExcept _).bind fun _ => Action.keeps_pure _
  | enabled number =>
    exact (keeps_sellList _ number).bind fun _ => Action.keeps_get.bind fun _ =>
      (Action.keeps_ofExcept _).bind fun _ => Action.keeps_pure _
  | category number v =>
    exact (keeps_sellList _ number).bind fun _ => (Action.keeps_ofExcept _).bind fun _ =>
      (stage _).bind fun _ => Action.keeps_pure _
  | create scene => exact (stage _).bind fun _ => Action.keeps_pure _
  | push number =>
    refine Action.keeps_get.bind fun s => ?_
    split
    · exact fun _ h => h
    · exact (stage _).bind fun _ => Action.keeps_pure _
  | pop => exact (stage _).bind fun _ => Action.keeps_pure _
  | setup | run | execute | declare | consume => cases hm
  | gainGold | add | remove | sell => cases htrade

/-- The game and the player change no interpreter and, unless they change just that, no battle. -/
theorem keeps_of_maker_none (hm : m.maker = none) (hbattle : ∀ v, m ≠ .battle v)
    (P : List Interpreter → Value → Prop) :
    Action.Keeps (fun s : Session => P s.interpreters s.game.party.inBattle) (perform m) := by
  have party {α : Type} {a : Action Party α}
      (h : ∀ b, Action.Keeps (fun party => party.inBattle = b) a) :
      Action.Keeps (fun s : Session => P s.interpreters s.game.party.inBattle) (onParty a) := by
    intro s hs
    have hnext : (a.perform s.game.party).2.inBattle = s.game.party.inBattle := h _ _ rfl
    show P s.interpreters (a.perform s.game.party).2.inBattle
    rw [hnext]
    exact hs
  by_cases htrade : m.isTrade = true
  · cases m with
    | gainGold amount =>
      exact (Action.keeps_ofExcept _).bind fun amount =>
        (party fun b => keeps_gainGold (fun _ inBattle => inBattle = b) amount).bind fun _ =>
          Action.keeps_pure _
    | add entry amount =>
      exact (Action.keeps_ofExcept _).bind fun amount =>
        (party (keeps_inBattle_add entry amount)).bind fun _ => Action.keeps_pure _
    | remove entry amount =>
      exact (Action.keeps_ofExcept _).bind fun amount =>
        (party (keeps_inBattle_remove entry amount)).bind fun _ => Action.keeps_pure _
    | sell number entry amount =>
      exact (keeps_shop _ number).bind fun shop =>
        (party (keeps_inBattle_sell shop entry amount)).bind fun _ => Action.keeps_pure _
    | _ => cases htrade
  · exact keeps_of_not_trade hm hbattle (Bool.eq_false_iff.2 htrade)
      fun interpreters party => P interpreters party.inBattle

/-- A move of no concern to an interpreter leaves the session as it looks to it. -/
theorem alike_next_of_not_concerns (h : m.concerns i = false) (s : Session) :
    Alike i (s.next m) s := by
  obtain ⟨hown, hbattle⟩ := not_or.1 (mt Move.concerns_iff.2 (Bool.eq_false_iff.1 h))
  rw [not_exists] at hbattle
  cases hm : m.maker with
  | some j =>
    have hij : i ≠ j := by
      rintro rfl
      exact hown hm
    obtain ⟨reply, opened, interpreter, hacts, -⟩ := exists_acts hm (Alike.refl j s)
    refine ⟨hacts.others i hij, ?_⟩
    rw [hacts.game]
  | none =>
    exact ⟨keeps_of_maker_none hm hbattle (fun l _ => l[i]? = s.interpreters[i]?) s rfl,
      keeps_of_maker_none hm hbattle (fun _ b => b = s.game.party.inBattle) s rfl⟩

/-- A change of the battle is the same to look at in every session. -/
theorem Alike.next_battle (hst : Alike i s t) (v : Value) :
    Alike i (s.next (.battle v)) (t.next (.battle v)) :=
  ⟨hst.interpreter, rfl⟩

/-! ## The law -/

/-- A run of moves has the turns of the run without the moves of no concern, also from a session
that only looks the same. -/
theorem turns_filter_concerns (i : Nat) (moves : List Move) (hst : Alike i s t) :
    s.turns i moves = t.turns i (moves.filter (·.concerns i)) ∧
      Alike i (s.after moves) (t.after (moves.filter (·.concerns i))) := by
  induction moves generalizing s t with
  | nil => exact ⟨rfl, hst⟩
  | cons m moves ih =>
    by_cases hconcerns : m.concerns i = true
    · rw [List.filter_cons_of_pos hconcerns, after_cons, after_cons, turns, turns]
      rcases Move.concerns_iff.1 hconcerns with hm | ⟨v, rfl⟩
      · obtain ⟨hturn, hnext⟩ := turn_eq_of_alike hm hst
        obtain ⟨hturns, hlast⟩ := ih hnext
        rw [if_pos hm, if_pos hm, hturn, hturns]
        exact ⟨rfl, hlast⟩
      · have hm : (Move.battle v).maker ≠ some i := nofun
        rw [if_neg hm, if_neg hm]
        exact ih (hst.next_battle v)
    · have hm : m.maker ≠ some i := fun hm => hconcerns (Move.concerns_iff.2 (.inl hm))
      rw [List.filter_cons_of_neg hconcerns, turns, if_neg hm, after_cons]
      exact ih ((alike_next_of_not_concerns (Bool.eq_false_iff.2 hconcerns) s).trans hst)

/-- The shops that an own move opens come behind the scenes that are there, and each of them is still
under the restrictions that it was made with. -/
theorem constructs_of_opened (hm : m.maker = some i) (s : Session) :
    (s.next m).game.stage.scenes =
        s.game.stage.scenes ++ (s.turn i m).opened.map Shop.onStage ∧
      ∀ k shop, (s.turn i m).opened[k]? = some shop →
        s.Constructs m (s.game.stage.scenes.length + k) shop.restrictions := by
  obtain ⟨reply, opened, interpreter, hacts, -⟩ := exists_acts hm (Alike.refl i s)
  rw [hacts.turn_eq]
  refine ⟨by rw [hacts.game]; rfl, fun k shop hk => ?_⟩
  have hafter : (s.next m).shop? (s.game.stage.scenes.length + k) = some shop := by
    rw [shop?, hacts.game, Stage.shop?_eq, Stage.scenes_grown,
      List.getElem?_append_right (Nat.le_add_right _ _), Nat.add_sub_cancel_left,
      List.getElem?_map, hk]
    rfl
  have hbefore : s.shop? (s.game.stage.scenes.length + k) = none := by
    rw [shop?, Stage.shop?_eq, List.getElem?_eq_none (Nat.le_add_right _ _)]
    rfl
  have hcreate : ∀ scene, m ≠ .create scene := by
    rintro scene rfl
    cases hm
  obtain ⟨r, hr⟩ := exists_constructs (fun scene heq => absurd heq (hcreate scene)) hbefore hafter
  obtain ⟨made, hmade, hunder⟩ := hr.exists_under
  cases hafter.symm.trans hmade
  rw [hunder.1]
  exact hr

/-- **Interpreters do not interfere**: in any run of moves of several interpreters, of the player and
of the game, the turns of an interpreter, what each of them answers and opens included, and the
interpreter at the end are those of the run in which only its own moves and the changes of the battle
are made. The shops that a turn opens are all that it adds to the stage, and their restrictions are
those that they were made with. -/
theorem interpreters_do_not_interfere (i : Nat) (moves : List Move) (s : Session) :
    s.turns i moves = s.turns i (moves.filter (·.concerns i)) ∧
      (s.after moves).interpreters[i]? =
        (s.after (moves.filter (·.concerns i))).interpreters[i]? ∧
      ∀ (t : Session) (m : Move), m.maker = some i →
        (t.next m).game.stage.scenes =
            t.game.stage.scenes ++ (t.turn i m).opened.map Shop.onStage ∧
          ∀ k shop, (t.turn i m).opened[k]? = some shop →
            t.Constructs m (t.game.stage.scenes.length + k) shop.restrictions := by
  obtain ⟨hturns, hlast⟩ := turns_filter_concerns i moves (Alike.refl i s)
  exact ⟨hturns, hlast.interpreter, fun t m hm => constructs_of_opened hm t⟩

/-- A second interpreter opens a shop and takes what waits for it, the player closes a scene and the
party gets gold, all while the first interpreter meets a battle and opens its shop after it. -/
def crowded : List Move :=
  [.execute 1 Play.oneGood, .battle (.bool true), .execute 0 Play.oneGood, .pop, .consume 1,
    .gainGold (.int 5), .battle (.bool false), .execute 0 Play.oneGood]

/-- The first interpreter does what it would do alone: nothing during the battle, and then it opens
a shop under item 1. -/
theorem turns_crowded :
    Move.maker (.execute 0 Play.oneGood) = some 0 ∧
      itemDeclared.turns 0 crowded = itemDeclared.turns 0
        [.battle (.bool true), .execute 0 Play.oneGood, .battle (.bool false),
          .execute 0 Play.oneGood] ∧
      (itemDeclared.turns 0 crowded).map (fun turn => turn.opened.map (·.restrictions)) =
        [[], [some Play.itemOne]] ∧
      itemDeclared.Constructs (.execute 0 Play.oneGood) 0 (some Play.itemOne) := by
  obtain ⟨hturns, -, hopened⟩ := interpreters_do_not_interfere 0 crowded itemDeclared
  refine ⟨rfl, hturns, by decide +kernel, ?_⟩
  have hshop : ((itemDeclared.turn 0 (.execute 0 Play.oneGood)).opened[0]?).map (·.restrictions) =
      some (some Play.itemOne) := by decide +kernel
  obtain ⟨shop, hshop, hrestrictions⟩ := Option.map_eq_some_iff.1 hshop
  rw [← hrestrictions]
  exact (hopened itemDeclared (.execute 0 Play.oneGood) rfl).2 0 shop hshop

end Session
end SellRules
