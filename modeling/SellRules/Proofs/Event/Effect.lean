import SellRules.Event.Interpreter
import SellRules.Proofs.Shop.Stage

/-!
# The effect of a command

`Command.effect` decides what a command does from the settings, from whether there is a battle and
from the lines of goods ahead of it. It sees neither the restrictions that wait nor the stage.
`Play.perform_execute` is the law of execution: the interpreter moves past the lines that the
command takes, and then the command either has its effect (`Effect.apply`) or fails without any.
-/

set_option autoImplicit false

namespace SellRules

/-- What a command that does not fail does. -/
inductive Effect where
  | nothing
  | declares (r : RestrictionSet)
  /-- A shop stays closed because of a battle. -/
  | skips
  | opens (goods : List Good) (purchaseOnly : Bool)

namespace Command

/-- The restrictions that a text plugin command declares, if it calls the restriction command. -/
def textDeclaration (settings : Settings) (parameters : List Value) :
    Except Failure (Option RestrictionSet) := do
  match ← Play.textWords parameters with
  | [] => return none
  | word :: tokens =>
    if ← Play.calls settings word then return some (← Token.parse tokens) else return none

/-- The restrictions that a plugin command declares, if it has the names of the restriction
command. -/
def pluginDeclaration (settings : Settings) (parameters : List Value) :
    Except Failure (Option RestrictionSet) :=
  match parameters with
  | plugin :: command :: rest =>
    if plugin.equal settings.pluginName && command.equal settings.commandName then
      some <$> Structured.parseArguments (rest[1]?.getD (.object []))
    else .ok none
  | _ => .error .noElement

/-- The good of a line. -/
def good (line : Command) : Except Failure Good := Good.ofParameters (.list line.parameters)

/-- How many lines are taken to read them as goods: up to the first malformed one. -/
def taken : List Command → Nat
  | [] => 0
  | line :: rest => if line.good.isOk then taken rest + 1 else 1

/-- How many of the lines ahead a command takes. -/
def linesTaken (ahead : List Command) (c : Command) : Nat :=
  if c.code = shopCode && c.good.isOk then taken ahead else 0

/-- The goods of a shop command and of the lines ahead. -/
def goods (ahead : List Command) (c : Command) : Except Failure (List Good) := do
  return (← c.good) :: (← ahead.mapM good)

/-- Whether the shop of a command only sells. -/
def purchaseOnly (c : Command) : Bool := (c.parameters[4]?).any Value.truthy

/-- The restrictions that a command declares, if it is a plugin command that declares any. -/
def declaration (settings : Settings) (c : Command) : Except Failure (Option RestrictionSet) :=
  if c.code = textCode then textDeclaration settings c.parameters
  else if c.code = pluginCode then pluginDeclaration settings c.parameters
  else .ok none

/-- What a command does, with the given lines of goods ahead of it. -/
def effect (settings : Settings) (inBattle : Bool) (ahead : List Command) (c : Command) :
    Except Failure Effect := do
  if c.code = shopCode then
    let goods ← c.goods ahead
    return if inBattle then .skips else .opens goods c.purchaseOnly
  else match ← c.declaration settings with
    | some r => return .declares r
    | none => return .nothing

end Command

namespace Play

/-- The play with an interpreter that is some commands further on. -/
def moved (n : Nat) (p : Play) : Play :=
  { p with interpreter := { p.interpreter with position := p.interpreter.position + n } }

/-- The play in which the given restrictions wait. -/
def waiting (r : Option RestrictionSet) (p : Play) : Play :=
  { p with interpreter := { p.interpreter with registry := { pending := r } } }

/-- The shop that would open with the given goods. -/
def shopWith (goods : List Good) (purchaseOnly : Bool) (p : Play) : Shop where
  goods
  purchaseOnly := .bool purchaseOnly
  restrictions := p.interpreter.registry.pending
  logChecks := p.interpreter.settings.logRestrictions.truthy

/-- Whether what waits, if anything does, can be listed. -/
def Listable (p : Play) : Prop := ∀ r ∈ p.interpreter.registry.pending, r.Listable

end Play

/-- The play after an effect. -/
def Effect.apply : Effect → Play → Play
  | .nothing, p => p
  | .declares r, p => p.waiting (some r)
  | .skips, p => p
  | .opens goods purchaseOnly, p =>
    let game := { p.game with stage := p.game.stage.opened (p.shopWith goods purchaseOnly) }
    { p.waiting none with game }

/-! ## Declarations -/

theorem Command.typed_declaration {settings : Settings} {c : Command} {r : RestrictionSet}
    (h : c.declaration settings = .ok (some r)) : r.Typed := by
  unfold declaration at h
  split at h
  · obtain ⟨words, -, h⟩ := bind_eq_ok.1 h
    split at h
    · cases h
    · obtain ⟨called, -, h⟩ := bind_eq_ok.1 h
      split at h
      · obtain ⟨r, hr, h⟩ := bind_eq_ok.1 h
        cases h
        exact Token.typed_parse hr
      · cases h
  · split at h
    · unfold pluginDeclaration at h
      split at h
      · split at h
        · obtain ⟨r, hr, h⟩ := map_eq_ok.1 h
          cases h
          exact Structured.typed_parseArguments hr
        · cases h
      · cases h
    · cases h

/-- Restrictions that can be listed are declared without failing. -/
theorem Registry.perform_declare {r : RestrictionSet} (h : r.Listable) (registry : Registry) :
    (declare (some r)).perform registry = (.ok (), { pending := some r }) := by
  obtain ⟨lists, hlists⟩ := h
  simp only [declare, hlists]
  rfl

namespace Play

/-- What declaring restrictions, or none, leaves of a play. -/
def declared : Except Failure (Option RestrictionSet) → Play → Except Failure Unit × Play
  | .error f, p => (.error f, p)
  | .ok none, p => (.ok (), p)
  | .ok (some r), p => (.ok (), p.waiting (some r))

theorem perform_declare {r : RestrictionSet} (h : r.Listable) (p : Play) :
    (onRegistry (Registry.declare (some r))).perform p = (.ok (), p.waiting (some r)) := by
  simp only [onRegistry, Action.perform_within, Registry.perform_declare h]
  rfl

theorem perform_textCommand (parameters : List Value) (p : Play) :
    (textCommand parameters).perform p =
      declared (Command.textDeclaration p.interpreter.settings parameters) p := by
  unfold textCommand Command.textDeclaration
  rw [Action.perform_bind, Action.perform_ofExcept]
  cases textWords parameters with
  | error f => rfl
  | ok words =>
    cases words with
    | nil => rfl
    | cons word tokens =>
      simp only [ok_bind, Action.perform_bind, Action.perform_get, Action.perform_ofExcept]
      cases calls p.interpreter.settings word with
      | error f => rfl
      | ok called =>
        cases called with
        | false => rfl
        | true =>
          simp only [ok_bind, ↓reduceIte, Action.perform_bind, Action.perform_ofExcept]
          cases hr : Token.parse tokens with
          | error f => rfl
          | ok r => exact perform_declare (Token.typed_parse hr).listable p

theorem perform_pluginCommand (parameters : List Value) (p : Play) :
    (pluginCommand parameters).perform p =
      declared (Command.pluginDeclaration p.interpreter.settings parameters) p := by
  unfold pluginCommand Command.pluginDeclaration
  match parameters with
  | [] | [_] => rfl
  | plugin :: command :: rest =>
    simp only [Action.perform_bind, Action.perform_get]
    split
    · simp only [Action.perform_bind, Action.perform_ofExcept]
      cases hr : Structured.parseArguments (rest[1]?.getD (.object [])) with
      | error f => rfl
      | ok r => exact perform_declare (Structured.typed_parseArguments hr).listable p
    · rfl

/-! ## Shops -/

@[simp] theorem moved_zero (p : Play) : p.moved 0 = p := rfl

theorem moved_moved (m n : Nat) (p : Play) : (p.moved m).moved n = p.moved (m + n) := by
  simp only [moved, Nat.add_assoc]

theorem perform_advance (p : Play) :
    (updateInterpreter Interpreter.advance).perform p = (.ok (), p.moved 1) := rfl

/-- Lines are read as goods until one is malformed, and the interpreter moves past those that were
taken. -/
theorem perform_collectGoods (lines : List Command) (p : Play) :
    (collectGoods lines).perform p = (lines.mapM Command.good, p.moved (Command.taken lines)) := by
  induction lines generalizing p with
  | nil => rfl
  | cons line rest ih =>
    have hg : Good.ofParameters (.list line.parameters) = line.good := rfl
    simp only [collectGoods, Action.perform_bind, perform_advance, Action.perform_ofExcept, hg,
      List.mapM_cons, Command.taken]
    cases line.good with
    | error f => rfl
    | ok good =>
      simp only [ok_bind, ih, moved_moved, Except.isOk, Except.toBool, ↓reduceIte]
      rw [Nat.add_comm 1]
      cases rest.mapM Command.good <;> rfl

theorem perform_onStage {α : Type} (a : Action Stage α) (p : Play) :
    (onStage a).perform p =
      let outcome := a.perform p.game.stage
      (outcome.1, { p with game := { p.game with stage := outcome.2 } }) := rfl

theorem perform_consume (p : Play) :
    (onRegistry Registry.consume).perform p =
      (.ok p.interpreter.registry.pending, p.waiting none) := rfl

/-- Creating a shop and opening it. -/
theorem perform_createShop (shop : Shop) (h : ∀ r ∈ shop.restrictions, r.Listable) (p : Play) :
    (do let number ← onStage (Stage.create { shop := some shop })
        onStage (Stage.push number) : Action Play Unit).perform p =
      (.ok (), { p with game := { p.game with stage := p.game.stage.opened shop } }) := by
  rw [Action.perform_bind, perform_onStage, Stage.perform_create]
  simp only [perform_onStage, Stage.perform_push_last h]

/-- Opening a shop whose goods were read. -/
theorem perform_openShop {parameters : List Value} {first : Good} {more : List Good} {p : Play}
    (hp : p.Listable) (hfirst : Good.ofParameters (.list parameters) = .ok first)
    (hmore : p.interpreter.goodsAhead.mapM Command.good = .ok more) :
    (openShop parameters).perform p =
      let q := p.moved (Command.taken p.interpreter.goodsAhead)
      let effect := if p.game.party.inBattle.truthy then .skips
        else Effect.opens (first :: more) ((parameters[4]?).any Value.truthy)
      (.ok (), effect.apply q) := by
  have hq : (p.moved (Command.taken p.interpreter.goodsAhead)).Listable := hp
  have hb : (p.moved (Command.taken p.interpreter.goodsAhead)).game.party.inBattle =
      p.game.party.inBattle := rfl
  simp only [openShop, hfirst, Action.perform_bind, Action.perform_ofExcept, Action.perform_get,
    perform_collectGoods, hmore, hb]
  generalize p.moved (Command.taken p.interpreter.goodsAhead) = q at hq
  split
  · rfl
  · rw [Action.perform_bind, perform_consume]
    simp only
    rw [Action.perform_bind, Action.perform_get]
    exact perform_createShop (q.shopWith (first :: more) ((parameters[4]?).any Value.truthy)) hq
      (q.waiting none)

/-! ## The law of execution -/

/-- What an effect, or a failure, leaves of a play. -/
def affected : Except Failure Effect → Play → Except Failure Unit × Play
  | .ok e, p => (.ok (), e.apply p)
  | .error f, p => (.error f, p)

/-- What a command does in a play. -/
def effectOf (p : Play) (c : Command) : Except Failure Effect :=
  c.effect p.interpreter.settings p.game.party.inBattle.truthy p.interpreter.goodsAhead

/-- Goods that cannot be read make a shop command fail, and only the lines that were taken are
passed. -/
theorem perform_openShop_of_error {p : Play} {c : Command} {f : Failure}
    (hc : c.code = Command.shopCode) (hgoods : c.goods p.interpreter.goodsAhead = .error f) :
    (openShop c.parameters).perform p =
      (.error f, p.moved (c.linesTaken p.interpreter.goodsAhead)) := by
  have hg : Good.ofParameters (.list c.parameters) = c.good := rfl
  simp only [Command.goods] at hgoods
  simp only [Command.linesTaken, hc]
  cases hfirst : c.good with
  | error g =>
    rw [hfirst] at hgoods
    cases hgoods
    rw [openShop, hg, hfirst]
    rfl
  | ok first =>
    cases hmore : p.interpreter.goodsAhead.mapM Command.good with
    | error g =>
      rw [hfirst, hmore] at hgoods
      cases hgoods
      simp only [openShop, hg, hfirst, Action.perform_bind, Action.perform_ofExcept,
        Action.perform_get, perform_collectGoods, hmore]
      rfl
    | ok more =>
      rw [hfirst, hmore] at hgoods
      cases hgoods

theorem perform_shopCommand {p : Play} (hp : p.Listable) {c : Command}
    (hc : c.code = Command.shopCode) :
    (openShop c.parameters).perform p =
      affected (p.effectOf c) (p.moved (c.linesTaken p.interpreter.goodsAhead)) := by
  have hg : Good.ofParameters (.list c.parameters) = c.good := rfl
  simp only [effectOf, Command.effect, hc, ↓reduceIte]
  cases hgoods : c.goods p.interpreter.goodsAhead with
  | error f => exact perform_openShop_of_error hc hgoods
  | ok goods =>
    obtain ⟨first, hfirst, hrest⟩ := bind_eq_ok.1 hgoods
    obtain ⟨more, hmore, hpure⟩ := bind_eq_ok.1 hrest
    cases hpure
    rw [perform_openShop hp (hg ▸ hfirst) hmore]
    simp only [ok_bind, Command.linesTaken, hc, hfirst]
    split <;> rfl

theorem declared_eq_affected (d : Except Failure (Option RestrictionSet)) (p : Play) :
    declared d p = affected (d >>= fun
      | some r => return .declares r
      | none => return .nothing) p := by
  match d with
  | .error f => rfl
  | .ok none => rfl
  | .ok (some r) => rfl

/-- **The law of execution**: the interpreter moves past the lines that the command takes, and then
the command has its effect or fails. -/
theorem perform_execute {p : Play} (hp : p.Listable) (c : Command) :
    (execute c).perform p =
      affected (p.effectOf c) (p.moved (c.linesTaken p.interpreter.goodsAhead)) := by
  unfold execute
  by_cases hs : c.code = Command.shopCode
  · rw [if_pos hs, perform_shopCommand hp hs]
  have hl : c.linesTaken p.interpreter.goodsAhead = 0 := by simp [Command.linesTaken, hs]
  rw [if_neg hs, hl, moved_zero, effectOf, Command.effect, if_neg hs, Command.declaration,
    ← declared_eq_affected]
  by_cases ht : c.code = Command.textCode
  · rw [if_pos ht, if_pos ht, perform_textCommand]
  by_cases hq : c.code = Command.pluginCode
  · rw [if_neg ht, if_pos hq, if_neg ht, if_pos hq, perform_pluginCommand]
  · rw [if_neg ht, if_neg hq, if_neg ht, if_neg hq]
    rfl

/-! ## What effects keep -/

@[simp] theorem settings_apply (e : Effect) (p : Play) :
    (e.apply p).interpreter.settings = p.interpreter.settings := by cases e <;> rfl

@[simp] theorem commands_apply (e : Effect) (p : Play) :
    (e.apply p).interpreter.commands = p.interpreter.commands := by cases e <;> rfl

@[simp] theorem position_apply (e : Effect) (p : Play) :
    (e.apply p).interpreter.position = p.interpreter.position := by cases e <;> rfl

@[simp] theorem party_apply (e : Effect) (p : Play) : (e.apply p).game.party = p.game.party := by
  cases e <;> rfl

theorem typed_effect {settings : Settings} {inBattle : Bool} {ahead : List Command} {c : Command}
    {r : RestrictionSet} (h : c.effect settings inBattle ahead = .ok (.declares r)) : r.Typed := by
  unfold Command.effect at h
  split at h
  · obtain ⟨goods, -, h⟩ := bind_eq_ok.1 h
    cases inBattle <;> cases h
  · obtain ⟨found, hfound, h⟩ := bind_eq_ok.1 h
    split at h
    · cases h
      exact Command.typed_declaration hfound
    · cases h

/-- What waits after a command can be listed. -/
theorem Listable.apply {p q : Play} {c : Command} {e : Effect} (he : p.effectOf c = .ok e)
    (hq : q.Listable) : (e.apply q).Listable := by
  cases e with
  | nothing | skips => exact hq
  | declares r =>
    intro s hs
    cases hs
    exact (typed_effect he).listable
  | opens goods purchaseOnly =>
    intro s hs
    cases hs

end Play

end SellRules
