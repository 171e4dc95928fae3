import Mathlib.Data.List.Induction
import SellRules.Proofs.Event.Run

/-!
# Hand-over of declarations

A history records what moves of an interpreter and of its game do to what waits: declarations,
drops, shops that open and shops that a battle keeps closed. It is made from the commands and the
settings and never looks at the registry. `Play.Waits` reads the restrictions that wait off a
history alone: the last declared ones, if nothing but skipped shops came after them. `Play.Accounts`
says that a history accounts for a play, and every move keeps it: what waits in the registry is what
waits by the history, and each shop on the stage was opened under what waited when it was opened.
-/

set_option autoImplicit false

namespace SellRules

/-- The scene that a shop gives when it is opened. -/
def Shop.scene (shop : Shop) : Scene := { shop := some shop.entered, managed := true }

namespace Play

/-- What a history records. -/
inductive Deed where
  | declared (r : RestrictionSet)
  /-- What waited was taken away or forgotten, without a shop. -/
  | dropped
  | opened
  /-- A shop stayed closed because of a battle. -/
  | skipped
  deriving DecidableEq

/-- What one event's interpreter does, and what the game does to a battle meanwhile. -/
inductive Move where
  | setup (commands : List Command) (eventId : Value)
  | run
  | execute (c : Command)
  | declare (r : RestrictionSet)
  | consume
  | battle (inBattle : Value)

def Move.action : Move → Action Play Unit
  | .setup commands eventId => Play.setup commands eventId
  | .run => Play.run
  | .execute c => Play.execute c
  | .declare r => onRegistry (Registry.declare (some r))
  | .consume => discard (onRegistry Registry.consume)
  | .battle inBattle =>
    modify fun p => { p with game := { p.game with party := { p.game.party with inBattle } } }

/-- Makes moves one after the other, up to the first that fails. -/
def performAll : List Move → Action Play Unit
  | [] => pure ()
  | move :: rest => do
    move.action
    performAll rest

/-! ## Histories -/

/-- The deeds of a command that does not fail. -/
def deedsOf (settings : Settings) (inBattle : Bool) (c : Command) : List Deed :=
  if c.code = Command.shopCode then [if inBattle then .skipped else .opened]
  else match c.declaration settings with
    | .ok (some r) => [.declared r]
    | _ => []

/-- The deeds of commands in a play. -/
def deeds (p : Play) (commands : List Command) : List Deed :=
  commands.flatMap (deedsOf p.interpreter.settings p.game.party.inBattle.truthy)

def Move.deeds (p : Play) : Move → List Deed
  | .setup _ _ => [.dropped]
  | .run => p.deeds p.remaining
  | .execute c => p.deeds [c]
  | .declare r => [.declared r]
  | .consume => [.dropped]
  | .battle _ => []

/-- The history of moves that do not fail. -/
def history : List Move → Play → List Deed
  | [], _ => []
  | move :: rest, p => move.deeds p ++ history rest (move.action.perform p).2

/-- What waits after a history: the last declared restrictions, if only skipped shops came after
them. -/
def Waits (h : List Deed) (r : RestrictionSet) : Prop :=
  ∃ before after, h = before ++ .declared r :: after ∧ ∀ d ∈ after, d = .skipped

theorem not_waits_nil (r : RestrictionSet) : ¬ Waits [] r := by
  rintro ⟨before, after, h, -⟩
  simp at h

theorem waits_concat {h : List Deed} {d : Deed} {r : RestrictionSet} :
    Waits (h ++ [d]) r ↔ d = .declared r ∨ d = .skipped ∧ Waits h r := by
  constructor
  · rintro ⟨before, after, heq, hafter⟩
    rcases concat_eq_append_cons heq with ⟨-, hd, -⟩ | ⟨shorter, rfl, rfl⟩
    · exact .inl hd
    · exact .inr ⟨hafter d (by simp), before, shorter, rfl, fun x hx => hafter x (by simp [hx])⟩
  · rintro (rfl | ⟨rfl, before, after, rfl, hafter⟩)
    · exact ⟨h, [], rfl, by simp⟩
    · refine ⟨before, after ++ [.skipped], by simp, fun x hx => ?_⟩
      rcases List.mem_append.1 hx with hx | hx
      · exact hafter x hx
      · exact List.mem_singleton.1 hx

/-- Nothing from before a shop waits after it. -/
theorem waits_append_opened {before after : List Deed} {r : RestrictionSet} :
    Waits (before ++ .opened :: after) r ↔ Waits after r := by
  induction after using List.reverseRecOn with
  | nil => simp [waits_concat, not_waits_nil]
  | append_singleton shorter last ih =>
    rw [← List.cons_append, ← List.append_assoc, waits_concat, waits_concat, ih]

/-! ## The account of a play -/

/-- A history accounts for what waits in a play and for the shops that are on its stage since the
start. -/
structure Accounts (start : Play) (h : List Deed) (p : Play) (shops : List Shop) : Prop where
  listable : p.Listable
  waits : ∀ r, p.interpreter.registry.pending = some r ↔ Waits h r
  scenes : p.game.stage.scenes = start.game.stage.scenes ++ shops.map Shop.scene
  count : shops.length = h.count .opened
  /-- A shop has what waited when it was opened. -/
  given : ∀ before after, h = before ++ .opened :: after →
    ∃ shop, shops[before.count .opened]? = some shop ∧
      ∀ r, shop.restrictions = some r ↔ Waits before r

theorem Accounts.begin {start : Play} (h : start.interpreter.registry.pending = none) :
    Accounts start [] start [] where
  listable := by simp [Listable, h]
  waits r := by simp [h, not_waits_nil]
  scenes := by simp
  count := rfl
  given before after heq := by simp at heq

variable {start p q : Play} {h : List Deed} {shops : List Shop}

/-- An account is about the registry and the scenes alone. -/
theorem Accounts.congr (a : Accounts start h p shops)
    (hregistry : q.interpreter.registry = p.interpreter.registry)
    (hscenes : q.game.stage.scenes = p.game.stage.scenes) : Accounts start h q shops where
  listable := by
    rw [Listable, hregistry]
    exact a.listable
  waits := by
    rw [hregistry]
    exact a.waits
  scenes := hscenes.trans a.scenes
  count := a.count
  given := a.given

/-- A deed that opens no shop. -/
theorem Accounts.quiet (a : Accounts start h p shops) {d : Deed} (hd : d ≠ .opened)
    (hlistable : q.Listable)
    (hwaits : ∀ r, q.interpreter.registry.pending = some r ↔ Waits (h ++ [d]) r)
    (hscenes : q.game.stage.scenes = p.game.stage.scenes) :
    Accounts start (h ++ [d]) q shops where
  listable := hlistable
  waits := hwaits
  scenes := hscenes.trans a.scenes
  count := by simp [a.count, hd]
  given before after heq := by
    rcases concat_eq_append_cons heq with ⟨-, hopened, -⟩ | ⟨shorter, hh, -⟩
    · exact absurd hopened hd
    · exact a.given before shorter hh

theorem Accounts.declared (a : Accounts start h p shops) {r : RestrictionSet} (hr : r.Listable) :
    Accounts start (h ++ [.declared r]) (p.waiting (some r)) shops := by
  refine a.quiet (by simp) ?_ (fun s => ?_) rfl
  · intro s hs
    cases hs
    exact hr
  · simp [waits_concat, waiting, eq_comm]

theorem Accounts.dropped (a : Accounts start h p shops) :
    Accounts start (h ++ [.dropped]) (p.waiting none) shops := by
  refine a.quiet (by simp) ?_ (fun s => ?_) rfl
  · simp [Listable, waiting]
  · simp [waits_concat, waiting]

theorem Accounts.skipped (a : Accounts start h p shops) :
    Accounts start (h ++ [.skipped]) p shops := by
  refine a.quiet (by simp) a.listable (fun s => ?_) rfl
  simp [waits_concat, a.waits]

/-- The shop that is opened takes what waits. -/
theorem Accounts.opened (a : Accounts start h p shops) (goods : List Good) (purchaseOnly : Bool) :
    Accounts start (h ++ [.opened]) ((Effect.opens goods purchaseOnly).apply p)
      (shops ++ [p.shopWith goods purchaseOnly]) where
  listable := by simp [Listable, Effect.apply, waiting]
  waits r := by simp [waits_concat, Effect.apply, waiting]
  scenes := by simp [Effect.apply, Stage.opened, a.scenes, Shop.scene]
  count := by simp [a.count]
  given before after heq := by
    rcases concat_eq_append_cons heq with ⟨rfl, -, -⟩ | ⟨shorter, hh, -⟩
    · refine ⟨p.shopWith goods purchaseOnly, ?_, a.waits⟩
      rw [← a.count, List.getElem?_concat_length]
    · obtain ⟨shop, hshop, hgiven⟩ := a.given before shorter hh
      refine ⟨shop, ?_, hgiven⟩
      rw [List.getElem?_append_left (List.getElem?_eq_some_iff.1 hshop).1, hshop]

/-! ## Commands and runs -/

/-- A command that does not fail has its deeds. -/
theorem Accounts.command (a : Accounts start h p shops) {c : Command} {e : Effect}
    (he : p.effectOf c = .ok e) (n : Nat) :
    ∃ more, Accounts start (h ++ p.deeds [c]) (e.apply (p.moved n)) more := by
  have a : Accounts start h (p.moved n) shops := a.congr rfl rfl
  rw [deeds, List.flatMap_singleton, deedsOf]
  rw [effectOf, Command.effect] at he
  split at he
  next hs =>
    rw [if_pos hs]
    obtain ⟨goods, -, he⟩ := bind_eq_ok.1 he
    cases hb : p.game.party.inBattle.truthy with
    | true =>
      rw [hb] at he
      cases he
      exact ⟨shops, a.skipped⟩
    | false =>
      rw [hb] at he
      cases he
      exact ⟨_, a.opened goods c.purchaseOnly⟩
  next hs =>
    rw [if_neg hs]
    obtain ⟨found, hfound, he⟩ := bind_eq_ok.1 he
    rw [hfound]
    cases found with
    | none =>
      cases he
      exact ⟨shops, by rwa [List.append_nil]⟩
    | some r =>
      cases he
      exact ⟨shops, a.declared (Command.typed_declaration hfound).listable⟩

/-- Lines of goods have no deeds of their own. -/
theorem deeds_lines (p : Play) {lines : List Command}
    (h : ∀ line ∈ lines, line.code = Command.goodsCode) : p.deeds lines = [] := by
  refine List.flatMap_eq_nil_iff.2 fun line hline => ?_
  have hcode := h line hline
  simp [deedsOf, Command.declaration, hcode, Command.goodsCode, Command.shopCode,
    Command.textCode, Command.pluginCode]

/-- Deeds depend on the settings and the battle alone, and no round changes these. -/
theorem deeds_after (c : Command) (e : Effect) (p : Play) (commands : List Command) :
    (p.after c e).deeds commands = p.deeds commands := by
  simp only [deeds, after, moved, settings_apply, party_apply]

theorem Accounts.rounds {n : Nat} (hr : Rounds n p q) (hend : q.interpreter.current? = none)
    (a : Accounts start h p shops) :
    ∃ more, Accounts start (h ++ p.deeds p.remaining) q more := by
  induction hr generalizing h shops with
  | refl p =>
    rw [remaining_of_current_none hend]
    exact ⟨shops, by simpa [deeds] using a⟩
  | @step n p q c e hc he _ ih =>
    obtain ⟨shops, ha⟩ := a.command he (c.linesTaken p.interpreter.goodsAhead)
    obtain ⟨more, hmore⟩ := ih hend (ha.congr (q := p.after c e) rfl rfl)
    obtain ⟨lines, hlines, hremaining⟩ := remaining_eq_of_round hc he
    refine ⟨more, ?_⟩
    rw [deeds_after, List.append_assoc] at hmore
    have hdeeds : p.deeds p.remaining = p.deeds [c] ++ p.deeds (p.after c e).remaining := by
      rw [hremaining]
      have hnone := p.deeds_lines hlines
      simp only [deeds, List.flatMap_cons, List.flatMap_append, List.flatMap_nil] at hnone ⊢
      rw [hnone, List.append_nil, List.nil_append]
    rwa [hdeeds]

theorem Accounts.run (a : Accounts start h p shops) (hrun : Play.run.perform p = (.ok (), q)) :
    ∃ more, Accounts start (h ++ p.deeds p.remaining) q more := by
  obtain ⟨n, hrounds, hend⟩ := exists_rounds_of_runFor a.listable hrun
  exact Accounts.rounds hrounds hend a

/-! ## Moves -/

/-- Only restrictions that can be listed are declared without failing. -/
theorem listable_of_perform_declare {r : RestrictionSet}
    (h : (onRegistry (Registry.declare (some r))).perform p = (.ok (), q)) : r.Listable := by
  cases hlists : r.listed with
  | ok lists => exact ⟨lists, hlists⟩
  | error f =>
    simp only [onRegistry, Action.perform_within, Registry.declare, hlists] at h
    cases congrArg Prod.fst h

theorem Accounts.move (a : Accounts start h p shops) {move : Move}
    (hmove : move.action.perform p = (.ok (), q)) :
    ∃ more, Accounts start (h ++ move.deeds p) q more := by
  cases move with
  | setup commands eventId =>
    cases hmove
    exact ⟨shops, a.dropped.congr rfl rfl⟩
  | run => exact a.run hmove
  | execute c =>
    rw [Move.action, perform_execute a.listable] at hmove
    cases he : p.effectOf c with
    | error f =>
      rw [he] at hmove
      cases hmove
    | ok e =>
      rw [he] at hmove
      cases hmove
      exact a.command he _
  | declare r =>
    have hr := listable_of_perform_declare hmove
    rw [Move.action, perform_declare hr] at hmove
    cases hmove
    exact ⟨shops, a.declared hr⟩
  | consume =>
    cases hmove
    exact ⟨shops, a.dropped⟩
  | battle inBattle =>
    cases hmove
    exact ⟨shops, by
      rw [Move.deeds, List.append_nil]
      exact a.congr rfl rfl⟩

theorem Accounts.moves (a : Accounts start h p shops) {moves : List Move}
    (hmoves : (performAll moves).perform p = (.ok (), q)) :
    ∃ more, Accounts start (h ++ history moves p) q more := by
  induction moves generalizing p h shops with
  | nil =>
    cases hmoves
    exact ⟨shops, by rwa [history, List.append_nil]⟩
  | cons move rest ih =>
    rw [performAll, Action.perform_bind] at hmoves
    cases hmove : move.action.perform p with
    | mk answer next =>
      rw [hmove] at hmoves
      cases answer with
      | error f => cases hmoves
      | ok =>
        obtain ⟨middle, hmiddle⟩ := a.move hmove
        obtain ⟨more, hmore⟩ := ih hmiddle hmoves
        refine ⟨more, ?_⟩
        rwa [history, hmove, ← List.append_assoc]

/-- A shop that a battle keeps closed leaves what waits, even if it fails. -/
theorem registry_execute_of_inBattle {c : Command} (hc : c.code = Command.shopCode)
    (hb : p.game.party.inBattle.truthy = true) :
    ((execute c).perform p).2.interpreter.registry = p.interpreter.registry := by
  rw [execute, if_pos hc, openShop, Action.perform_bind, Action.perform_ofExcept]
  cases Good.ofParameters (.list c.parameters) with
  | error f => rfl
  | ok first =>
    simp only [Action.perform_bind, Action.perform_get, perform_collectGoods]
    cases p.interpreter.goodsAhead.mapM Command.good with
    | error f => rfl
    | ok more =>
      have hmoved : (p.moved (Command.taken p.interpreter.goodsAhead)).game.party.inBattle.truthy =
        true := hb
      simp only [hmoved, ↓reduceIte]
      rfl

/-! ## One shop, one declaration -/

/-- **One-shot, last-wins hand-over.** After any moves of a new interpreter, none of which fails,
the shops that opened are the new scenes. Each has exactly the restrictions that waited by the
history before it; those of a later shop were declared after every earlier shop, so that no
declaration reaches two. What waits in the end is what waits by the whole history, and a shop that a
battle keeps closed leaves what waits. -/
theorem shops_take_last_declaration {start final : Play} {moves : List Move}
    (hstart : start.interpreter.registry.pending = none)
    (hmoves : (performAll moves).perform start = (.ok (), final)) :
    (∃ shops : List Shop,
      final.game.stage.scenes = start.game.stage.scenes ++ shops.map Shop.scene ∧
      shops.length = (history moves start).count .opened ∧
      (∀ before after, history moves start = before ++ .opened :: after →
        ∃ shop, shops[before.count .opened]? = some shop ∧
          ∀ r, shop.restrictions = some r ↔ Waits before r) ∧
      (∀ before between after,
        history moves start = before ++ .opened :: (between ++ .opened :: after) →
        ∃ shop, shops[before.count .opened + between.count .opened + 1]? = some shop ∧
          ∀ r, shop.restrictions = some r ↔ Waits between r)) ∧
    (∀ r, final.interpreter.registry.pending = some r ↔ Waits (history moves start) r) ∧
    ∀ (p : Play) (c : Command), c.code = Command.shopCode →
      p.game.party.inBattle.truthy = true →
      ((execute c).perform p).2.interpreter.registry = p.interpreter.registry := by
  obtain ⟨shops, a⟩ := (Accounts.begin hstart).moves hmoves
  rw [List.nil_append] at a
  refine ⟨⟨shops, a.scenes, a.count, a.given, fun before between after heq => ?_⟩, a.waits,
    fun p c hc hb => registry_execute_of_inBattle hc hb⟩
  obtain ⟨shop, hshop, hgiven⟩ := a.given (before ++ .opened :: between) after (by simp [heq])
  refine ⟨shop, ?_, fun r => (hgiven r).trans waits_append_opened⟩
  rwa [List.count_append, List.count_cons_self, ← Nat.add_assoc] at hshop

/-- Item 1 as restrictions. -/
def itemOne : RestrictionSet := .ofRules [(.itemIds, .int 1)]

/-- A shop with one good. -/
def oneGood : Command where
  code := Command.shopCode
  parameters := [.int 0, .int 1, .int 0, .int 0]

/-- An event with two shops is set up; restrictions are declared, a battle keeps a shop closed, and
then the event runs. -/
def twoShops : List Move :=
  [.setup [oneGood, oneGood] (.int 1), .declare itemOne, .battle (.bool true), .execute oneGood,
    .battle (.bool false), .run]

/-- The first of the two shops takes the declaration, and nothing is left for the second. -/
theorem first_of_two_shops_takes_declaration :
    ∃ final first second, (performAll twoShops).perform ⟨{}, {}⟩ = (.ok (), final) ∧
      final.game.stage.scenes = [Shop.scene first, Shop.scene second] ∧
      first.restrictions = some itemOne ∧ second.restrictions = none := by
  obtain ⟨final, hrun⟩ : ∃ final, (performAll twoShops).perform ⟨{}, {}⟩ = (.ok (), final) :=
    ⟨_, rfl⟩
  obtain ⟨⟨shops, hscenes, hcount, hgiven, hlater⟩, -⟩ := shops_take_last_declaration rfl hrun
  obtain ⟨first, hfirst, htakes⟩ := hgiven [.dropped, .declared itemOne, .skipped] [.opened] rfl
  obtain ⟨second, hsecond, hnone⟩ := hlater [.dropped, .declared itemOne, .skipped] [] [] rfl
  match shops, hcount with
  | [a, b], _ =>
    cases hfirst
    cases hsecond
    have hwaits : Waits [.dropped, .declared itemOne, .skipped] itemOne :=
      ⟨[.dropped], [.skipped], rfl, by simp⟩
    refine ⟨final, first, second, hrun, hscenes, (htakes itemOne).2 hwaits, ?_⟩
    exact Option.eq_none_iff_forall_ne_some.2 fun r hr => not_waits_nil r ((hnone r).1 hr)

end Play

end SellRules
