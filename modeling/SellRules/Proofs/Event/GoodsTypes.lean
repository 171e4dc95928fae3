import Mathlib.Data.List.Forall2
import SellRules.Proofs.Event.Growth

/-!
# Types of goods

The parameters of a line of goods mean a good (`Good.Means`) if their type is one of the three kinds,
counted from zero. Types are also counted backward from minus one (`Good.IsBackward`), so three types
outside the range are taken for kinds. What `Play.ChecksGoods` asks of a shop command, that it opens
with what its lines mean and fails without effect for any other type, holds up to these three
(`Play.checksGoods_iff`).
-/

set_option autoImplicit false

namespace SellRules

namespace Good

/-- A parameter as a whole number. -/
def wholeAt (parameters : List Value) (index : Nat) : Except Failure Int := do
  (← (Value.list parameters).element index).toWhole

/-- The type is that of a kind: zero, one or two. -/
def IsKnown (parameters : List Value) : Prop :=
  wholeAt parameters 0 = .ok 0 ∨ wholeAt parameters 0 = .ok 1 ∨ wholeAt parameters 0 = .ok 2

/-- The type counts the kinds backward: minus one, minus two or minus three. -/
def IsBackward (parameters : List Value) : Prop :=
  ∃ type, wholeAt parameters 0 = .ok type ∧ -3 ≤ type ∧ type ≤ -1

/-- The good that parameters mean: the kind of a known type, the id, and a price of its own if there
are four parameters and the third is one. -/
structure Means (parameters : List Value) (good : Good) : Prop where
  kind : wholeAt parameters 0 = .ok 0 ∧ good.kind = .item ∨
    wholeAt parameters 0 = .ok 1 ∧ good.kind = .weapon ∨
    wholeAt parameters 0 = .ok 2 ∧ good.kind = .armor
  id : wholeAt parameters 1 = .ok good.id
  price : 4 ≤ parameters.length → wholeAt parameters 2 = .ok 1 →
    ∃ n, wholeAt parameters 3 = .ok n ∧ good.price = some n
  noPrice : ¬ (4 ≤ parameters.length ∧ wholeAt parameters 2 = .ok 1) → good.price = none

theorem Means.isKnown {parameters : List Value} {good : Good} (h : Means parameters good) :
    IsKnown parameters :=
  h.kind.imp And.left (Or.imp And.left And.left)

theorem IsKnown.not_isBackward {parameters : List Value} (h : IsKnown parameters) :
    ¬ IsBackward parameters := by
  rintro ⟨type, htype, hleast, hgreatest⟩
  rcases h with h | h | h <;> cases h.symm.trans htype <;> omega

theorem kindOf_eq_ok {type : Int} {kind : Kind} (h : kindOf type = .ok kind) :
    (type = 0 ∧ kind = .item ∨ type = 1 ∧ kind = .weapon ∨ type = 2 ∧ kind = .armor) ∨
      -3 ≤ type ∧ type ≤ -1 := by
  unfold kindOf at h
  simp only [Bool.or_eq_true, decide_eq_true_eq] at h
  split at h
  next htype =>
    cases h
    exact htype.imp (fun h => .inl ⟨h, rfl⟩) fun h => by omega
  next =>
    split at h
    next htype =>
      cases h
      exact htype.imp (fun h => .inr (.inl ⟨h, rfl⟩)) fun h => by omega
    next =>
      split at h
      next htype =>
        cases h
        exact htype.imp (fun h => .inr (.inr ⟨h, rfl⟩)) fun h => by omega
      next => cases h

theorem priceOf_eq_ok {parameters : List Value} {price : Option Int}
    (h : priceOf (.list parameters) = .ok price) :
    (4 ≤ parameters.length → wholeAt parameters 2 = .ok 1 →
      ∃ n, wholeAt parameters 3 = .ok n ∧ price = some n) ∧
    (¬ (4 ≤ parameters.length ∧ wholeAt parameters 2 = .ok 1) → price = none) := by
  have hsize : (Value.list parameters).size?.getD 0 = parameters.length := rfl
  simp only [priceOf, hsize] at h
  split at h
  next hlong =>
    obtain ⟨v, hv, h⟩ := bind_eq_ok.1 h
    obtain ⟨own, hown, h⟩ := bind_eq_ok.1 h
    have hthird : wholeAt parameters 2 = .ok own := by rw [wholeAt, hv, ok_bind, hown]
    split at h
    next hone =>
      obtain ⟨w, hw, h⟩ := bind_eq_ok.1 h
      obtain ⟨n, hn, h⟩ := bind_eq_ok.1 h
      cases h
      subst hone
      have hfourth : wholeAt parameters 3 = .ok n := by rw [wholeAt, hw, ok_bind, hn]
      exact ⟨fun _ _ => ⟨n, hfourth, rfl⟩, fun hno => absurd ⟨hlong, hthird⟩ hno⟩
    next hone =>
      cases h
      refine ⟨fun _ hother => ?_, fun _ => rfl⟩
      cases hthird.symm.trans hother
      exact absurd rfl hone
  next hshort =>
    cases h
    exact ⟨fun hlong => absurd hlong hshort, fun _ => rfl⟩

/-- Parameters that can be read mean the good, unless their type counts backward. -/
theorem means_of_ofParameters {parameters : List Value} {good : Good}
    (h : ofParameters (.list parameters) = .ok good) (hforward : ¬ IsBackward parameters) :
    Means parameters good := by
  obtain ⟨v, hv, h⟩ := bind_eq_ok.1 h
  obtain ⟨type, htype, h⟩ := bind_eq_ok.1 h
  obtain ⟨kind, hkind, h⟩ := bind_eq_ok.1 h
  obtain ⟨price, hprice, h⟩ := bind_eq_ok.1 h
  obtain ⟨w, hw, h⟩ := bind_eq_ok.1 h
  obtain ⟨id, hid, h⟩ := bind_eq_ok.1 h
  cases h
  have hfirst : wholeAt parameters 0 = .ok type := by rw [wholeAt, hv, ok_bind, htype]
  obtain ⟨hown, hnone⟩ := priceOf_eq_ok hprice
  refine ⟨?_, by rw [wholeAt, hw, ok_bind, hid], hown, hnone⟩
  rcases kindOf_eq_ok hkind with hknown | hbackward
  · rw [hfirst, Except.ok.injEq, Except.ok.injEq, Except.ok.injEq]
    exact hknown
  · exact absurd ⟨type, hfirst, hbackward⟩ hforward

end Good

/-- A function that succeeds along a list gives what it gives for each element. -/
theorem forall₂_of_mapM_eq_ok {α β ε : Type} {f : α → Except ε β} {R : α → β → Prop} {l : List α}
    {bs : List β} (hf : ∀ a ∈ l, ∀ b, f a = .ok b → R a b) (h : l.mapM f = .ok bs) :
    List.Forall₂ R l bs := by
  induction l generalizing bs with
  | nil =>
    cases h
    exact .nil
  | cons a l ih =>
    rw [List.mapM_cons] at h
    obtain ⟨first, hfirst, h⟩ := bind_eq_ok.1 h
    obtain ⟨rest, hrest, h⟩ := bind_eq_ok.1 h
    cases h
    obtain ⟨ha, hl⟩ := List.forall_mem_cons.1 hf
    exact .cons (ha first hfirst) (ih hl hrest)

namespace Play

variable {p : Play} {c : Command}

/-- A shop command and the lines of goods directly after it. -/
def block (p : Play) (c : Command) : List Command := c :: p.interpreter.goodsAhead

/-- A command fails and leaves the game and what waits as they were. -/
def Rejects (p : Play) (c : Command) : Prop :=
  ∃ f q, (execute c).perform p = (.error f, q) ∧ q.game = p.game ∧
    q.interpreter.registry = p.interpreter.registry

/-- What is asked of a shop command: a scene that it adds is a shop with the goods that the lines
mean, and it is rejected for a line whose type is not known. -/
structure ChecksGoods (p : Play) (c : Command) : Prop where
  opens : ∀ scene, ((execute c).perform p).2.game.stage.scenes = p.game.stage.scenes ++ [scene] →
    ∃ shop, scene.shop = some shop ∧
      List.Forall₂ (fun line good => Good.Means line.parameters good) (p.block c) shop.goods
  rejects : ∀ line ∈ p.block c, ¬ Good.IsKnown line.parameters → p.Rejects c

/-- The scene of a shop that was raised has its goods. -/
theorem goods_of_raised {goods : List Good} {purchaseOnly : Bool} {q : Play} {scene : Scene}
    (h : (q.raised goods purchaseOnly).game.stage.scenes = q.game.stage.scenes ++ [scene]) :
    ∃ shop, scene.shop = some shop ∧ shop.goods = goods := by
  have hscene : scene = { shop := some (q.shopWith goods purchaseOnly).pushed, managed := true } :=
    (List.singleton_inj.1 (List.append_cancel_left h)).symm
  subst hscene
  refine ⟨_, rfl, ?_⟩
  rcases Shop.pushed_eq (q.shopWith goods purchaseOnly) with hpushed | hpushed
  · rw [hpushed]
    rfl
  · rw [hpushed]
    rfl

theorem rejects_of_goods_error {f : Failure} (hcode : c.code = Command.shopCode)
    (hgoods : c.goods p.interpreter.goodsAhead = .error f) : p.Rejects c := by
  refine ⟨f, p.moved (c.linesTaken p.interpreter.goodsAhead), ?_, rfl, rfl⟩
  rw [execute, if_pos hcode, perform_openShop_of_error hcode hgoods]

/-- **Lines of goods with an unknown type are rejected, up to the types that count backward.** Out of
battle a shop command opens only with the goods that its lines mean, and it fails without effect if
any line has another type, exactly if it is not the case that all lines can be read and one of them
has the type minus one, minus two or minus three. -/
theorem checksGoods_iff (hcode : c.code = Command.shopCode)
    (hpeace : p.game.party.inBattle.truthy = false) :
    p.ChecksGoods c ↔ ¬ ((∃ goods, c.goods p.interpreter.goodsAhead = .ok goods) ∧
      ∃ line ∈ p.block c, Good.IsBackward line.parameters) := by
  constructor
  · rintro hchecks ⟨⟨goods, hgoods⟩, line, hline, hbackward⟩
    obtain ⟨f, q, hq, hgame, -⟩ :=
      hchecks.rejects line hline fun hknown => hknown.not_isBackward hbackward
    obtain ⟨n, hraised⟩ := execute_of_goods hcode hpeace hgoods
    rw [hq] at hraised
    have hscenes := congrArg (fun r : Play => r.game.stage.scenes.length) hraised
    simp only [hgame, raised, moved, waiting, Stage.raised, List.length_append,
      List.length_singleton] at hscenes
    omega
  · intro hforward
    cases hgoods : c.goods p.interpreter.goodsAhead with
    | error f =>
      have hrejects := rejects_of_goods_error hcode hgoods
      refine ⟨fun scene hscene => ?_, fun _ _ _ => hrejects⟩
      obtain ⟨f, q, hq, hgame, -⟩ := hrejects
      have hlength := congrArg List.length hscene
      simp [hq, hgame] at hlength
    | ok goods =>
      have hmap : (p.block c).mapM Command.good = .ok goods := by
        rw [block, List.mapM_cons]
        exact hgoods
      have hmeans : ∀ line ∈ p.block c, ∀ good, line.good = .ok good →
          Good.Means line.parameters good := fun line hline good hgood =>
        Good.means_of_ofParameters hgood fun hbackward =>
          hforward ⟨⟨goods, hgoods⟩, line, hline, hbackward⟩
      refine ⟨fun scene hscene => ?_, fun line hline hunknown => ?_⟩
      · obtain ⟨n, hraised⟩ := execute_of_goods hcode hpeace hgoods
        rw [hraised] at hscene
        obtain ⟨shop, hshop, rfl⟩ := goods_of_raised hscene
        exact ⟨shop, hshop, forall₂_of_mapM_eq_ok hmeans hmap⟩
      · obtain ⟨good, hgood⟩ := exists_of_mapM_eq_ok hmap line hline
        exact absurd (hmeans line hline good hgood).isKnown hunknown

/-- A shop with one good of a type. -/
def shopOfType (type : Int) : Command where
  code := Command.shopCode
  parameters := [.int type, .int 1, .int 0, .int 0]

/-- A good of type three is rejected. -/
theorem type_three_is_rejected : Rejects ⟨{}, {}⟩ (shopOfType 3) := by
  have hchecks : ChecksGoods ⟨{}, {}⟩ (shopOfType 3) := by
    refine (checksGoods_iff rfl rfl).2 ?_
    rintro ⟨⟨goods, hgoods⟩, -⟩
    cases hgoods
  refine hchecks.rejects _ List.mem_cons_self ?_
  rintro (h | h | h) <;> cases h

/-- A good of type minus one is taken for an armor: the shop opens with it. -/
theorem backward_type_is_taken_for_armor :
    ¬ ChecksGoods ⟨{}, {}⟩ (shopOfType (-1)) ∧
    ∃ q scene shop, (execute (shopOfType (-1))).perform ⟨{}, {}⟩ = (.ok (), q) ∧
      q.game.stage.scenes = [scene] ∧ scene.shop = some shop ∧
      shop.goods = [⟨.armor, 1, none⟩] := by
  refine ⟨fun hchecks => ?_, _, _, _, rfl, rfl, rfl, rfl⟩
  have hunknown : ¬ Good.IsKnown (shopOfType (-1)).parameters := by
    rintro (h | h | h) <;> cases h
  obtain ⟨f, q, hq, -⟩ := hchecks.rejects _ List.mem_cons_self hunknown
  cases hq

end Play
end SellRules
