import Mathlib.Data.List.Infix
import Mathlib.Tactic.ByContra
import SellRules.Proofs.Event.Run

/-!
# What interpreters add to the stage

An interpreter adds shops to the stage and changes none that is there. A command adds one exactly
when it opens a shop (`Play.Opens`), and that shop is under the restrictions that waited
(`Play.execute_of_opens`, `Play.execute_of_not_opens`). Unlike the law of execution these hold
whatever waits, so also for restrictions that cannot be listed, where opening fails half-way.
`Play.Makes` follows a run to the commands that open its shops.
-/

set_option autoImplicit false

namespace SellRules

namespace Play

/-- A command opens a shop: its goods and those ahead can be read, and there is no battle. -/
def Opens (p : Play) (c : Command) : Prop :=
  c.code = Command.shopCode ∧ p.game.party.inBattle.truthy = false ∧
    ∃ goods, c.goods p.interpreter.goodsAhead = .ok goods

/-- The play in which a shop was created and pushed under what waited. -/
def raised (goods : List Good) (purchaseOnly : Bool) (p : Play) : Play :=
  { p.waiting none with
    game := { p.game with stage := p.game.stage.raised (p.shopWith goods purchaseOnly) } }

/-- A shop command with goods that can be read moves past the lines of goods and raises a shop with
them. -/
theorem execute_of_goods {p : Play} {c : Command} {goods : List Good}
    (hcode : c.code = Command.shopCode) (hbattle : p.game.party.inBattle.truthy = false)
    (hgoods : c.goods p.interpreter.goodsAhead = .ok goods) :
    ∃ n, ((execute c).perform p).2 = (p.moved n).raised goods c.purchaseOnly := by
  obtain ⟨first, hfirst, hgoods⟩ := bind_eq_ok.1 hgoods
  obtain ⟨more, hmore, hpure⟩ := bind_eq_ok.1 hgoods
  cases hpure
  have hg : Good.ofParameters (.list c.parameters) = .ok first := hfirst
  refine ⟨Command.taken p.interpreter.goodsAhead, ?_⟩
  have hb : (p.moved (Command.taken p.interpreter.goodsAhead)).game.party.inBattle.truthy = false :=
    hbattle
  rw [execute, if_pos hcode]
  simp only [openShop, hg, Action.perform_bind, Action.perform_ofExcept, Action.perform_get,
    perform_collectGoods, hmore, hb, Bool.false_eq_true, ↓reduceIte]
  generalize p.moved (Command.taken p.interpreter.goodsAhead) = q
  have hpushed := Stage.perform_push_created (q.shopWith (first :: more) c.purchaseOnly)
    q.game.stage
  simp only [perform_consume, perform_onStage, Stage.perform_create]
  rw [raised, ← hpushed]
  rfl

/-- A command that opens a shop raises it. -/
theorem execute_of_opens {p : Play} {c : Command} (h : p.Opens c) :
    ∃ n goods, ((execute c).perform p).2 = (p.moved n).raised goods c.purchaseOnly := by
  obtain ⟨hcode, hbattle, goods, hgoods⟩ := h
  obtain ⟨n, hraised⟩ := execute_of_goods hcode hbattle hgoods
  exact ⟨n, goods, hraised⟩

/-- Other commands move on or declare; the game stays as it is. -/
theorem execute_of_not_opens {p : Play} {c : Command} (h : ¬ p.Opens c) :
    ((execute c).perform p).2.game = p.game := by
  unfold execute
  split
  next hcode =>
    cases hgoods : c.goods p.interpreter.goodsAhead with
    | error f =>
      rw [perform_openShop_of_error hcode hgoods]
      rfl
    | ok goods =>
      obtain ⟨first, hfirst, hrest⟩ := bind_eq_ok.1 hgoods
      obtain ⟨more, hmore, -⟩ := bind_eq_ok.1 hrest
      have hg : Good.ofParameters (.list c.parameters) = .ok first := hfirst
      have hb : (p.moved (Command.taken p.interpreter.goodsAhead)).game.party.inBattle.truthy =
          true := Bool.of_not_eq_false fun hb => h ⟨hcode, hb, goods, hgoods⟩
      simp only [openShop, hg, Action.perform_bind, Action.perform_ofExcept,
        Action.perform_get, perform_collectGoods, hmore, hb, ↓reduceIte]
      rfl
  next =>
    split
    · rw [perform_textCommand]
      rcases Command.textDeclaration p.interpreter.settings c.parameters with f | (_ | r) <;> rfl
    · split
      · rw [perform_pluginCommand]
        rcases Command.pluginDeclaration p.interpreter.settings c.parameters with f | (_ | r) <;>
          rfl
      · rfl

/-! ## Growth -/

/-- A command keeps the scenes that are there. -/
theorem scenes_execute (p : Play) (c : Command) :
    p.game.stage.scenes <+: ((execute c).perform p).2.game.stage.scenes := by
  by_cases h : p.Opens c
  · obtain ⟨n, goods, hq⟩ := execute_of_opens h
    rw [hq]
    exact List.prefix_append _ _
  · rw [execute_of_not_opens h]

/-- One round of a run. -/
theorem perform_runFor_round {p : Play} {c : Command} (hc : p.interpreter.current? = some c)
    (limit : Nat) :
    (runFor (limit + 1)).perform p =
      match (execute c).perform p with
      | (.ok _, q) => (runFor limit).perform (q.moved 1)
      | (.error f, q) => (.error f, q) := by
  simp only [runFor, Action.perform_bind, Action.perform_get, hc, perform_advance]
  cases (execute c).perform p with
  | mk answer q => cases answer <;> rfl

theorem perform_run (p : Play) :
    run.perform p =
      (runFor (p.interpreter.commands.length - p.interpreter.position)).perform p := rfl

/-- A run keeps the scenes that are there. -/
theorem scenes_runFor (limit : Nat) (p : Play) :
    p.game.stage.scenes <+: ((runFor limit).perform p).2.game.stage.scenes := by
  induction limit generalizing p with
  | zero => exact List.prefix_rfl
  | succ limit ih =>
    cases hc : p.interpreter.current? with
    | none =>
      rw [perform_runFor_done hc]
    | some c =>
      have hexecute := scenes_execute p c
      rw [perform_runFor_round hc]
      cases hq : (execute c).perform p with
      | mk answer q =>
        rw [hq] at hexecute
        cases answer with
        | error f => exact hexecute
        | ok => exact hexecute.trans (ih (q.moved 1))

/-! ## Shops that a run makes -/

/-- Within a limit of rounds a run makes a shop with a number, under the restrictions that wait when
it comes to it. -/
inductive Makes : Nat → Play → Nat → Option RestrictionSet → Prop
  | now {limit : Nat} {p : Play} {c : Command} (current : p.interpreter.current? = some c)
      (opens : p.Opens c) :
      Makes (limit + 1) p p.game.stage.scenes.length p.interpreter.registry.pending
  | later {limit : Nat} {p q : Play} {c : Command} {number : Nat} {r : Option RestrictionSet}
      (current : p.interpreter.current? = some c) (done : (execute c).perform p = (.ok (), q))
      (rest : Makes limit (q.moved 1) number r) : Makes (limit + 1) p number r

/-- The shop that a command opens is under what waited. -/
theorem shop?_execute_of_opens {p : Play} {c : Command} (h : p.Opens c) :
    ∃ shop, ((execute c).perform p).2.game.stage.shop? p.game.stage.scenes.length = some shop ∧
      shop.Under p.interpreter.registry.pending := by
  obtain ⟨n, goods, hq⟩ := execute_of_opens h
  have hunder : ((p.moved n).shopWith goods c.purchaseOnly).Under p.interpreter.registry.pending :=
    ⟨rfl, by simp [shopWith]⟩
  refine ⟨_, ?_, hunder.pushed⟩
  rw [hq, Stage.shop?_eq]
  show ((p.game.stage.scenes ++ _)[p.game.stage.scenes.length]?).bind _ = _
  rw [List.getElem?_concat_length]
  rfl

/-- A shop that a run makes is there when the run ends, under the restrictions that waited. -/
theorem Makes.shop? {limit : Nat} {p : Play} {number : Nat} {r : Option RestrictionSet}
    (h : Makes limit p number r) :
    ∃ shop, ((runFor limit).perform p).2.game.stage.shop? number = some shop ∧ shop.Under r := by
  induction h with
  | @now limit p c hc hopens =>
    obtain ⟨shop, hshop, hunder⟩ := shop?_execute_of_opens hopens
    refine ⟨shop, ?_, hunder⟩
    rw [perform_runFor_round hc]
    cases hq : (execute c).perform p with
    | mk answer q =>
      rw [hq] at hshop
      cases answer with
      | error f => exact hshop
      | ok => exact Stage.shop?_of_prefix (scenes_runFor limit (q.moved 1)) hshop
  | later hc hdone _ ih =>
    rw [perform_runFor_round hc, hdone]
    exact ih

/-- A shop that is there after a command and was not before is the one that the command opens. -/
theorem opens_of_shop?_execute {p : Play} {c : Command} {number : Nat} {shop : Shop}
    (hbefore : p.game.stage.shop? number = none)
    (hafter : ((execute c).perform p).2.game.stage.shop? number = some shop) :
    p.Opens c ∧ number = p.game.stage.scenes.length := by
  by_cases h : p.Opens c
  · obtain ⟨n, goods, hq⟩ := execute_of_opens h
    refine ⟨h, ?_⟩
    rw [hq] at hafter
    have hscenes : ((p.moved n).raised goods c.purchaseOnly).game.stage.scenes =
      p.game.stage.scenes ++ [_] := rfl
    by_contra hne
    rcases Nat.lt_or_gt_of_ne hne with hlt | hgt
    · rw [Stage.shop?_eq, hscenes, List.getElem?_append_left hlt] at hafter
      rw [Stage.shop?_eq, hafter] at hbefore
      cases hbefore
    · rw [Stage.shop?_eq, hscenes, List.getElem?_eq_none (by simp; omega)] at hafter
      cases hafter
  · rw [execute_of_not_opens h, hbefore] at hafter
    cases hafter

/-- A shop that is there after a run and was not before was made by it. -/
theorem exists_makes {limit : Nat} {p : Play} {number : Nat} {shop : Shop}
    (hbefore : p.game.stage.shop? number = none)
    (hafter : ((runFor limit).perform p).2.game.stage.shop? number = some shop) :
    ∃ r, Makes limit p number r := by
  induction limit generalizing p with
  | zero =>
    rw [runFor, Action.perform_pure, hbefore] at hafter
    cases hafter
  | succ limit ih =>
    cases hc : p.interpreter.current? with
    | none =>
      rw [perform_runFor_done hc, hbefore] at hafter
      cases hafter
    | some c =>
      rw [perform_runFor_round hc] at hafter
      cases hq : (execute c).perform p with
      | mk answer q =>
        rw [hq] at hafter
        cases hmiddle : q.game.stage.shop? number with
        | some made =>
          obtain ⟨hopens, rfl⟩ := opens_of_shop?_execute hbefore (by rw [hq]; exact hmiddle)
          exact ⟨_, .now hc hopens⟩
        | none =>
          cases answer with
          | error f =>
            rw [hmiddle] at hafter
            cases hafter
          | ok =>
            obtain ⟨r, hr⟩ := ih (p := q.moved 1) hmiddle hafter
            exact ⟨r, .later hc hq hr⟩

end Play
end SellRules
