import SellRules.Proofs.Restriction.Typed
import SellRules.Shop.Stage

/-!
# Opening a shop

What is left of a stage when a new shop is created and opened on it (`Stage.opened`): the shop, with
a sell list under its restrictions, is the last of the scenes and the newest on the stack, and all
other scenes are as they were. A shop that is found anywhere was made closed and then opened, closed
and moved between categories (`Shop.Arises`), so its sell list is under its own restrictions.
-/

set_option autoImplicit false

namespace SellRules

namespace Shop

/-- The shop with the sell list that it makes when it is opened. -/
def entered (shop : Shop) : Shop :=
  { shop with sellList := some { restrictions := shop.restrictions, logChecks := shop.logChecks } }

theorem enter_eq_ok {shop : Shop} (h : ∀ r ∈ shop.restrictions, r.Listable) :
    shop.enter = .ok shop.entered := by
  obtain ⟨goods, purchaseOnly, restrictions, logChecks, sellList⟩ := shop
  cases restrictions with
  | none => rfl
  | some r =>
    obtain ⟨lists, hlists⟩ := h r rfl
    simp only [enter, hlists]
    rfl

theorem eq_entered_of_enter {shop next : Shop} (h : shop.enter = .ok next) :
    next = shop.entered := by
  obtain ⟨goods, purchaseOnly, restrictions, logChecks, sellList⟩ := shop
  cases restrictions with
  | none =>
    cases h
    rfl
  | some r =>
    obtain ⟨listed, -, h⟩ := bind_eq_ok.1 h
    cases h
    rfl

/-- A shop as it may be found: it was made without a sell list, and since then it was opened, closed
and moved between categories in any order. -/
inductive Arises : Shop → Prop
  | made {shop : Shop} (closed : shop.sellList = none) : Arises shop
  | entered {shop next : Shop} (before : Arises shop) (enter : shop.enter = .ok next) : Arises next
  | left {shop : Shop} (before : Arises shop) : Arises shop.leave
  | moved {shop : Shop} {list : SellList} (before : Arises shop) (isOpen : shop.sellList = some list)
      (category : Option Category) : Arises { shop with sellList := some { list with category } }

/-- A shop's sell list is under the restrictions of the shop. -/
theorem Arises.restrictions_eq {shop : Shop} (h : shop.Arises) :
    ∀ list ∈ shop.sellList, list.restrictions = shop.restrictions := by
  induction h with
  | made closed => simp [closed]
  | entered _ enter _ => simp [eq_entered_of_enter enter, Shop.entered]
  | left _ _ => simp [leave]
  | moved _ isOpen category ih => simpa using ih _ isOpen

/-- A shop under restrictions: they are its own and those of its sell list, if it has one. -/
def Under (r : Option RestrictionSet) (shop : Shop) : Prop :=
  shop.restrictions = r ∧ ∀ list ∈ shop.sellList, list.restrictions = r

theorem under_leave (shop : Shop) : shop.leave.Under none := ⟨rfl, by simp [leave]⟩

/-- The shop after it was pushed: with its sell list, if its restrictions can be listed. -/
def pushed (shop : Shop) : Shop :=
  match shop.enter with
  | .ok next => next
  | .error _ => shop

theorem pushed_eq (shop : Shop) : shop.pushed = shop.entered ∨ shop.pushed = shop := by
  unfold pushed
  split
  next h => exact .inl (eq_entered_of_enter h)
  next => exact .inr rfl

theorem Under.pushed {r : Option RestrictionSet} {shop : Shop} (h : shop.Under r) :
    shop.pushed.Under r := by
  rcases pushed_eq shop with heq | heq
  · rw [heq]
    exact ⟨h.1, by simp [entered, h.1]⟩
  · rwa [heq]

theorem Arises.pushed {shop : Shop} (h : shop.Arises) : shop.pushed.Arises := by
  unfold Shop.pushed
  split
  next hnext => exact .entered h hnext
  next => exact h

end Shop

namespace Stage

/-- The stage on which a new shop is open. -/
def opened (shop : Shop) (stage : Stage) : Stage where
  scenes := stage.scenes ++ [{ shop := some shop.entered, managed := true }]
  stack := stage.scenes.length :: stage.stack

theorem modify_length_append {α : Type} (l : List α) (a : α) (f : α → α) :
    (l ++ [a]).modify l.length f = l ++ [f a] :=
  List.modifyTailIdx_add (List.modifyHead f) 0 l [a]

theorem perform_create (scene : Scene) (stage : Stage) :
    (create scene).perform stage =
      (.ok stage.scenes.length, { stage with scenes := stage.scenes ++ [scene] }) := rfl

/-- Opening the scene that was created last. -/
theorem perform_push_last {shop : Shop} (h : ∀ r ∈ shop.restrictions, r.Listable)
    (stage : Stage) :
    (push stage.scenes.length).perform
        { stage with scenes := stage.scenes ++ [{ shop := some shop }] } =
      (.ok (), stage.opened shop) := by
  simp only [push, Action.perform_bind, Action.perform_modify, Action.perform_get, updateScene,
    modify_length_append, shop?, scene?, List.getElem?_concat_length, Option.bind_some,
    Shop.enter_eq_ok h, Action.perform_ofExcept, updateShop, Option.map_some]
  rfl

/-! ## Shops by number -/

theorem shop?_eq (stage : Stage) (k : Nat) : stage.shop? k = stage.scenes[k]?.bind (·.shop) := rfl

/-- Scenes that are added at the end change no shop. -/
theorem shop?_of_prefix {stage next : Stage} (h : stage.scenes <+: next.scenes) {number : Nat}
    {shop : Shop} (hshop : stage.shop? number = some shop) : next.shop? number = some shop := by
  rw [shop?_eq] at hshop ⊢
  obtain ⟨scene, hscene, hshop⟩ := Option.bind_eq_some_iff.1 hshop
  obtain ⟨hlt, -⟩ := List.getElem?_eq_some_iff.1 hscene
  obtain ⟨more, hmore⟩ := h
  rw [← hmore, List.getElem?_append_left hlt, hscene]
  exact hshop

theorem shop?_updateShop (number : Nat) (f : Shop → Shop) (stage : Stage) (k : Nat) :
    (stage.updateShop number f).shop? k =
      if number = k then (stage.shop? k).map f else stage.shop? k := by
  simp only [shop?_eq, updateShop, updateScene, List.getElem?_modify]
  split
  · cases stage.scenes[k]? <;> rfl
  · cases stage.scenes[k]? <;> rfl

/-- Whether the stage holds a scene as open is no concern of its shop. -/
theorem shop?_updateScene_managed (number : Nat) (managed : Bool) (stage : Stage) (k : Nat) :
    (stage.updateScene number fun scene => { scene with managed }).shop? k = stage.shop? k := by
  simp only [shop?_eq, updateScene, List.getElem?_modify]
  split
  · cases stage.scenes[k]? <;> rfl
  · cases stage.scenes[k]? <;> rfl

theorem shop?_push (number : Nat) (stage : Stage) (k : Nat) :
    ((push number).perform stage).2.shop? k =
      if number = k then (stage.shop? k).map Shop.pushed else stage.shop? k := by
  have hshop (k : Nat) := shop?_updateScene_managed number true stage k
  simp only [push, Action.perform_bind, Action.perform_modify, Action.perform_get]
  generalize stage.updateScene number (fun scene => { scene with managed := true }) = held at hshop
  have hstack (k : Nat) : ({ held with stack := number :: held.stack } : Stage).shop? k =
    held.shop? k := rfl
  rw [hstack, hshop]
  cases hfound : stage.shop? number with
  | none =>
    simp only [Action.perform_pure, hstack, hshop]
    split
    next h => rw [← h, hfound]; rfl
    next => rfl
  | some shop =>
    simp only [Action.perform_bind, Action.perform_ofExcept]
    cases hnext : shop.enter with
    | error f =>
      simp only [hstack, hshop]
      split
      next h => simp [← h, hfound, Shop.pushed, hnext]
      next => rfl
    | ok next =>
      simp only [Action.perform_modify, shop?_updateShop, hstack, hshop]
      split
      next h => simp [← h, hfound, Shop.pushed, hnext]
      next => rfl

theorem shop?_pop (stage : Stage) (k : Nat) :
    (pop.perform stage).2.shop? k =
      if stage.current? = some k then (stage.shop? k).map Shop.leave else stage.shop? k := by
  obtain ⟨scenes, stack⟩ := stage
  cases stack with
  | nil => simp [pop, Action.perform_bind, current?]
  | cons number rest =>
    simp only [pop, Action.perform_bind, Action.perform_get, Action.perform_modify,
      Action.perform_pure, shop?_updateScene_managed, shop?_updateShop, current?, List.head?_cons,
      Option.some.injEq]
    rfl

theorem shop?_create (scene : Scene) (stage : Stage) (k : Nat) :
    ((create scene).perform stage).2.shop? k =
      if k = stage.scenes.length then scene.shop else stage.shop? k := by
  simp only [perform_create, shop?_eq]
  split
  next h => simp [h]
  next h =>
    rcases Nat.lt_or_gt_of_ne h with hlt | hgt
    · rw [List.getElem?_append_left hlt]
    · rw [List.getElem?_eq_none (by simp; omega), List.getElem?_eq_none (by omega)]

/-- The stage on which a new shop was created and pushed. -/
def raised (shop : Shop) (stage : Stage) : Stage where
  scenes := stage.scenes ++ [{ shop := some shop.pushed, managed := true }]
  stack := stage.scenes.length :: stage.stack

/-- Pushing the scene that was created last, whether or not its sell list can be made. -/
theorem perform_push_created (shop : Shop) (stage : Stage) :
    ((push stage.scenes.length).perform
        { stage with scenes := stage.scenes ++ [{ shop := some shop }] }).2 =
      stage.raised shop := by
  simp only [push, Action.perform_bind, Action.perform_modify, Action.perform_get, updateScene,
    modify_length_append, shop?, scene?, List.getElem?_concat_length, Option.bind_some,
    Action.perform_ofExcept, updateShop, raised, Shop.pushed]
  cases shop.enter with
  | error f => rfl
  | ok next => simp only [modify_length_append, Option.map_some]

end Stage
end SellRules
