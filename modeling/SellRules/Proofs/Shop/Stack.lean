import Mathlib.Data.List.Induction
import Mathlib.Data.List.Infix
import SellRules.Proofs.Shop.Stage

/-!
# Scenes on the stack

Scenes are made, pushed and popped in any order, and one that is on the stack already may be pushed
again. A scene lives, held by the stage and as a shop with a sell list, from a push of it until a pop
that returns it (`Stage.LastPushed`, `Stage.follows_of_proper`), and while it lives it is on the
stack. It is on the stack without living after a pop that returned it and left it standing further
below. What a pop returns is read off the acts as from brackets: the scene of the newest push whose
pop has not come yet (`Stage.current?_eq_some_iff`).
-/

set_option autoImplicit false

namespace SellRules

/-- The scene after it was pushed. -/
def Scene.pushed (scene : Scene) : Scene where
  shop := scene.shop.map Shop.pushed
  managed := true

/-- The scene after a pop has returned it. -/
def Scene.popped (scene : Scene) : Scene where
  shop := scene.shop.map Shop.leave
  managed := false

/-- A scene as it is made: the stage does not hold it, and a shop has no sell list and restrictions
that are whole numbers and texts, if any. -/
structure Scene.IsNew (scene : Scene) : Prop where
  apart : scene.managed = false
  closed : ∀ shop ∈ scene.shop, shop.sellList = none
  typed : ∀ shop ∈ scene.shop, ∀ r ∈ shop.restrictions, r.Typed

namespace Stage

/-! ## What is done with a stage -/

inductive Act where
  | create (scene : Scene)
  | push (number : Nat)
  | pop

/-- Carries an act out. Only popping answers with a scene. -/
def Act.action : Act → Action Stage (Option Nat)
  | .create scene => do
    let _ ← Stage.create scene
    return none
  | .push number => do
    Stage.push number
    return none
  | .pop => Stage.pop

/-- The stage after acts, one after the other. -/
def after (acts : List Act) (stage : Stage) : Stage :=
  acts.foldl (fun stage act => (act.action.perform stage).2) stage

variable {stage : Stage} {acts before since : List Act} {act : Act} {number k : Nat} {scene : Scene}

theorem after_append (before since : List Act) (stage : Stage) :
    after (before ++ since) stage = after since (after before stage) := List.foldl_append

theorem after_nil (stage : Stage) : after [] stage = stage := rfl

theorem after_create (scene : Scene) (acts : List Act) (stage : Stage) :
    after (.create scene :: acts) stage = after acts ((create scene).perform stage).2 := rfl

theorem after_push (number : Nat) (acts : List Act) (stage : Stage) :
    after (.push number :: acts) stage = after acts ((push number).perform stage).2 := by
  rw [after, List.foldl_cons, Act.action, Action.perform_bind]
  split <;> simp_all [after]

theorem after_pop (acts : List Act) (stage : Stage) :
    after (.pop :: acts) stage = after acts (pop.perform stage).2 := rfl

/-! ## One act -/

theorem scene?_updateScene (number : Nat) (f : Scene → Scene) (stage : Stage) (k : Nat) :
    (stage.updateScene number f).scene? k =
      if number = k then (stage.scene? k).map f else stage.scene? k := by
  simp only [scene?, updateScene, List.getElem?_modify]
  split
  · rfl
  · cases stage.scenes[k]? <;> rfl

theorem updateScene_congr {f g : Scene → Scene}
    (h : ∀ scene, stage.scene? number = some scene → f scene = g scene) :
    stage.updateScene number f = stage.updateScene number g := by
  have hmodify : stage.scenes.modify number f = stage.scenes.modify number g := by
    rw [List.modify_eq_set_getElem?, List.modify_eq_set_getElem?]
    cases hscene : stage.scenes[number]? with
    | none => rfl
    | some scene =>
      show stage.scenes.set number (f scene) = stage.scenes.set number (g scene)
      rw [h scene hscene]
  rw [updateScene, hmodify]
  rfl

theorem updateScene_updateScene (f g : Scene → Scene) (number : Nat) (stage : Stage) :
    (stage.updateScene number f).updateScene number g = stage.updateScene number (g ∘ f) := by
  simp only [updateScene, List.modify_modify_eq]

theorem updateScene_stack (f : Scene → Scene) (number : Nat) (stage : Stage) (stack : List Nat) :
    ({ stage with stack } : Stage).updateScene number f =
      { stage.updateScene number f with stack } := rfl

/-- Pushing a scene holds it and makes its sell list. It comes on top of the stack. -/
theorem next_push (number : Nat) (stage : Stage) :
    ((push number).perform stage).2 =
      { stage.updateScene number Scene.pushed with stack := number :: stage.stack } := by
  have hshop := shop?_updateScene_managed number true stage number
  have hstack (stage : Stage) (stack : List Nat) :
    ({ stage with stack } : Stage).shop? number = stage.shop? number := rfl
  have hpushed {f : Scene → Scene} (hf : ∀ scene, scene.shop = stage.shop? number →
      f scene = scene.pushed) :
      stage.updateScene number f = stage.updateScene number Scene.pushed :=
    updateScene_congr fun scene hscene => hf scene (by rw [shop?, hscene, Option.bind_some])
  simp only [push, Action.perform_bind, Action.perform_modify, Action.perform_get]
  rw [hstack, hshop]
  cases hfound : stage.shop? number with
  | none =>
    rw [Action.perform_pure, hpushed fun scene hscene => ?_]
    · rfl
    · rw [Scene.pushed, hscene, hfound]
      rfl
  | some shop =>
    simp only [Action.perform_bind, Action.perform_ofExcept]
    cases hnext : shop.enter with
    | error f =>
      rw [hpushed fun scene hscene => ?_]
      · rfl
      · rw [Scene.pushed, hscene, hfound, Option.map_some, Shop.pushed, hnext]
    | ok next =>
      simp only [Action.perform_modify, updateShop, updateScene_stack, updateScene_updateScene]
      rw [hpushed fun scene hscene => ?_]
      · rfl
      · rw [Function.comp, Scene.pushed, hscene, hfound, Option.map_some, Option.map_some,
          Shop.pushed, hnext]

/-- Popping answers with the scene on top, which is given up and closed. -/
theorem perform_pop (stage : Stage) :
    pop.perform stage = (.ok stage.current?,
      match stage.stack with
      | [] => stage
      | number :: rest => { stage.updateScene number Scene.popped with stack := rest }) := by
  obtain ⟨scenes, stack⟩ := stage
  cases stack with
  | nil => rfl
  | cons number rest =>
    simp only [pop, Action.perform_bind, Action.perform_get, Action.perform_modify,
      Action.perform_pure, updateShop, updateScene_updateScene]
    rfl

theorem stack_pop (stage : Stage) : (pop.perform stage).2.stack = stage.stack.tail := by
  rw [perform_pop]
  cases hstack : stage.stack <;> simp [hstack]

theorem scene?_pop (stage : Stage) (k : Nat) :
    (pop.perform stage).2.scene? k =
      if stage.current? = some k then (stage.scene? k).map Scene.popped else stage.scene? k := by
  rw [perform_pop, current?]
  cases hstack : stage.stack with
  | nil => rfl
  | cons number rest =>
    simp only [List.head?_cons, Option.some.injEq]
    exact scene?_updateScene number Scene.popped stage k

theorem scene?_push (number : Nat) (stage : Stage) (k : Nat) :
    ((push number).perform stage).2.scene? k =
      if number = k then (stage.scene? k).map Scene.pushed else stage.scene? k := by
  rw [next_push]
  exact scene?_updateScene number Scene.pushed stage k

theorem scene?_create (scene : Scene) (stage : Stage) (k : Nat) :
    ((create scene).perform stage).2.scene? k =
      if k = stage.scenes.length then some scene else stage.scene? k := by
  simp only [perform_create, scene?]
  split
  next h => simp [h]
  next h =>
    rcases Nat.lt_or_gt_of_ne h with hlt | hgt
    · rw [List.getElem?_append_left hlt]
    · rw [List.getElem?_eq_none (by simp; omega), List.getElem?_eq_none (by omega)]

end Stage

/-! ## Scenes that live -/

/-- A scene lives or not, by all of its parts; restrictions that it still has can be listed. -/
structure Scene.Lives (live : Prop) (scene : Scene) : Prop where
  managed : scene.managed = true ↔ live
  sellList : ∀ shop ∈ scene.shop, (shop.sellList.isSome = true ↔ live)
  listable : ∀ shop ∈ scene.shop, ∀ r ∈ shop.restrictions, r.Listable

namespace Scene

variable {scene : Scene} {live : Prop}

theorem IsNew.lives (h : scene.IsNew) : scene.Lives False where
  managed := by simp [h.apart]
  sellList shop hshop := by simp [h.closed shop hshop]
  listable shop hshop r hr := (h.typed shop hshop r hr).listable

theorem Lives.pushed (h : scene.Lives live) : scene.pushed.Lives True := by
  have hentered {shop : Shop} (hshop : shop ∈ scene.pushed.shop) :
      ∃ before ∈ scene.shop, before.entered = shop := by
    obtain ⟨before, hbefore, hpushed⟩ := Option.map_eq_some_iff.1 hshop
    rw [Shop.pushed, Shop.enter_eq_ok (h.listable before hbefore)] at hpushed
    exact ⟨before, hbefore, hpushed⟩
  refine ⟨by simp [Scene.pushed], fun shop hshop => ?_, fun shop hshop => ?_⟩
  · obtain ⟨before, -, rfl⟩ := hentered hshop
    simp [Shop.entered]
  · obtain ⟨before, hbefore, rfl⟩ := hentered hshop
    exact h.listable before hbefore

theorem lives_popped (scene : Scene) : scene.popped.Lives False := by
  refine ⟨by simp [Scene.popped], fun shop hshop => ?_, fun shop hshop => ?_⟩
  · obtain ⟨before, -, rfl⟩ := Option.map_eq_some_iff.1 hshop
    simp [Shop.leave]
  · obtain ⟨before, -, rfl⟩ := Option.map_eq_some_iff.1 hshop
    simp [Shop.leave]

end Scene

namespace Stage

/-- A scene was pushed, and no pop has returned it since then. -/
def LastPushed (acts : List Act) (k : Nat) : Prop :=
  ∃ before since, acts = before ++ .push k :: since ∧ ∀ earlier, earlier ++ [.pop] <+: since →
    (after (before ++ .push k :: earlier) {}).current? ≠ some k

/-- Acts of scenes as they come: those that are created are new, and those that are pushed are there,
on the stack or not. -/
inductive Proper : List Act → Prop
  | nil : Proper []
  | create {acts : List Act} {scene : Scene} (before : Proper acts) (new : scene.IsNew) :
      Proper (acts ++ [.create scene])
  | push {acts : List Act} {number : Nat} (before : Proper acts)
      (there : ((after acts {}).scene? number).isSome = true) : Proper (acts ++ [.push number])
  | pop {acts : List Act} (before : Proper acts) : Proper (acts ++ [.pop])

variable {stage : Stage} {acts before since : List Act} {act : Act} {number k : Nat} {scene : Scene}

theorem not_lastPushed_nil : ¬ LastPushed [] k := by
  rintro ⟨before, since, h, -⟩
  simp at h

theorem lastPushed_append_singleton :
    LastPushed (acts ++ [act]) k ↔
      act = .push k ∨ LastPushed acts k ∧ (act = .pop → (after acts {}).current? ≠ some k) := by
  constructor
  · rintro ⟨before, since, heq, hopen⟩
    rcases concat_eq_append_cons heq with ⟨-, rfl, -⟩ | ⟨since, rfl, rfl⟩
    · exact .inl rfl
    · refine .inr ⟨⟨before, since, rfl, fun earlier hearlier => ?_⟩, ?_⟩
      · exact hopen earlier (hearlier.trans (List.prefix_append _ _))
      · rintro rfl
        exact hopen since List.prefix_rfl
  · rintro (rfl | ⟨⟨before, since, rfl, hopen⟩, hlast⟩)
    · exact ⟨acts, [], rfl, fun earlier h => by simp at h⟩
    · refine ⟨before, since ++ [act], by simp, fun earlier hearlier => ?_⟩
      rcases List.prefix_concat_iff.1 hearlier with heq | hearlier
      · obtain ⟨rfl, hpop⟩ := List.append_inj' heq rfl
        cases hpop
        exact hlast rfl
      · exact hopen earlier hearlier

theorem lastPushed_create : LastPushed (acts ++ [.create scene]) k ↔ LastPushed acts k := by
  simp [lastPushed_append_singleton]

theorem lastPushed_push :
    LastPushed (acts ++ [.push number]) k ↔ number = k ∨ LastPushed acts k := by
  simp [lastPushed_append_singleton]

theorem lastPushed_pop :
    LastPushed (acts ++ [.pop]) k ↔ LastPushed acts k ∧ (after acts {}).current? ≠ some k := by
  simp [lastPushed_append_singleton]

/-- What the acts say of the stage that they leave: its scenes live by them, those that live are on
the stack, and there are scenes for all on the stack. -/
structure Follows (acts : List Act) : Prop where
  lives : ∀ k scene, (after acts {}).scene? k = some scene → scene.Lives (LastPushed acts k)
  isOn : ∀ k, LastPushed acts k → k ∈ (after acts {}).stack
  known : ∀ k ∈ (after acts {}).stack, ∃ scene, (after acts {}).scene? k = some scene

theorem Follows.create (h : Follows acts) (hnew : scene.IsNew) :
    Follows (acts ++ [.create scene]) := by
  obtain ⟨hlives, hon, hknown⟩ := h
  have hnone : ¬ LastPushed acts (after acts {}).scenes.length := fun hpushed => by
    obtain ⟨found, hfound⟩ := hknown _ (hon _ hpushed)
    simp [scene?] at hfound
  refine ⟨fun k found hfound => ?_, fun k hk => ?_, fun k hk => ?_⟩
  · rw [lastPushed_create]
    rw [after_append, after_create, after_nil, scene?_create] at hfound
    split at hfound
    next hlength =>
      cases hfound
      rw [hlength, iff_false_intro hnone]
      exact hnew.lives
    next => exact hlives k found hfound
  · rw [after_append, after_create, after_nil]
    exact hon k (lastPushed_create.1 hk)
  · rw [after_append, after_create, after_nil] at hk ⊢
    obtain ⟨found, hfound⟩ := hknown k hk
    rw [scene?_create]
    split
    · exact ⟨scene, rfl⟩
    · exact ⟨found, hfound⟩

theorem Follows.push (h : Follows acts) (hthere : ((after acts {}).scene? number).isSome = true) :
    Follows (acts ++ [.push number]) := by
  obtain ⟨hlives, hon, hknown⟩ := h
  refine ⟨fun k found hfound => ?_, fun k hk => ?_, fun k hk => ?_⟩
  · rw [lastPushed_push]
    rw [after_append, after_push, after_nil, scene?_push] at hfound
    split at hfound
    next heq =>
      obtain ⟨before, hbefore, rfl⟩ := Option.map_eq_some_iff.1 hfound
      rw [iff_true_intro (Or.inl heq)]
      exact (hlives k before hbefore).pushed
    next hne =>
      rw [or_iff_right hne]
      exact hlives k found hfound
  · rw [after_append, after_push, after_nil, next_push]
    rcases lastPushed_push.1 hk with rfl | hpushed
    · exact List.mem_cons_self
    · exact List.mem_cons_of_mem _ (hon k hpushed)
  · rw [after_append, after_push, after_nil] at hk ⊢
    have hfound : ((after acts {}).scene? k).isSome = true := by
      rw [next_push] at hk
      rcases List.mem_cons.1 hk with rfl | hk
      · exact hthere
      · exact Option.isSome_iff_exists.2 (hknown k hk)
    rw [← Option.isSome_iff_exists, scene?_push]
    split
    · simpa using hfound
    · exact hfound

theorem Follows.pop (h : Follows acts) : Follows (acts ++ [.pop]) := by
  obtain ⟨hlives, hon, hknown⟩ := h
  refine ⟨fun k found hfound => ?_, fun k hk => ?_, fun k hk => ?_⟩
  · rw [lastPushed_pop]
    rw [after_append, after_pop, after_nil, scene?_pop] at hfound
    split at hfound
    next heq =>
      obtain ⟨before, -, rfl⟩ := Option.map_eq_some_iff.1 hfound
      have hclosed : ¬ (LastPushed acts k ∧ (after acts {}).current? ≠ some k) :=
        fun hpushed => hpushed.2 heq
      rw [iff_false_intro hclosed]
      exact before.lives_popped
    next hne =>
      rw [and_iff_left hne]
      exact hlives k found hfound
  · obtain ⟨hpushed, hne⟩ := lastPushed_pop.1 hk
    have hmem := hon k hpushed
    rw [after_append, after_pop, after_nil, stack_pop]
    rw [current?] at hne
    cases hstack : (after acts {}).stack with
    | nil => simp [hstack] at hmem
    | cons top rest =>
      rw [hstack] at hne hmem
      exact (List.mem_cons.1 hmem).resolve_left fun heq => hne (by rw [heq]; rfl)
  · rw [after_append, after_pop, after_nil] at hk ⊢
    rw [stack_pop] at hk
    have hfound := Option.isSome_iff_exists.2 (hknown k (List.mem_of_mem_tail hk))
    rw [← Option.isSome_iff_exists, scene?_pop]
    split
    · simpa using hfound
    · exact hfound

theorem follows_of_proper (h : Proper acts) : Follows acts := by
  induction h with
  | nil => exact ⟨nofun, fun k hk => absurd hk not_lastPushed_nil, nofun⟩
  | create _ new ih => exact ih.create new
  | push _ there ih => exact ih.push there
  | pop _ ih => exact ih.pop

/-! ## What a pop returns -/

/-- Every push among acts is popped again, and nothing else is. -/
inductive Balanced : List Act → Prop
  | nil : Balanced []
  | create (scene : Scene) {rest : List Act} (more : Balanced rest) :
      Balanced (.create scene :: rest)
  | push (number : Nat) {inner rest : List Act} (within : Balanced inner) (more : Balanced rest) :
      Balanced (.push number :: (inner ++ .pop :: rest))

/-- The newest push whose pop has not come yet is of this scene. -/
def NewestOpen (acts : List Act) (k : Nat) : Prop :=
  ∃ before since, acts = before ++ .push k :: since ∧ Balanced since

theorem Balanced.append (h : Balanced before) (hsince : Balanced since) :
    Balanced (before ++ since) := by
  induction h with
  | nil => exact hsince
  | create scene _ ih => exact .create scene ih
  | push number within _ _ ih =>
    have hpush := Balanced.push number within ih
    simpa using hpush

/-- Balanced acts leave the stack as they found it. -/
theorem Balanced.stack_after (h : Balanced acts) (stage : Stage) :
    (after acts stage).stack = stage.stack := by
  induction h generalizing stage with
  | nil => rfl
  | create scene _ ih => exact ih _
  | push number _ _ hinner hrest =>
    rw [after_push, after_append, after_pop, hrest, stack_pop, hinner, next_push]
    rfl

theorem current?_of_newestOpen (h : NewestOpen acts k) : (after acts {}).current? = some k := by
  obtain ⟨before, since, rfl, hsince⟩ := h
  rw [after_append, after_push, current?, hsince.stack_after, next_push]
  rfl

/-- For what is on top of the stack there is a push with balanced acts after it. What lies below was
on the stack before that push. -/
theorem exists_push_of_stack {prior : List Act} {rest : List Nat} (hprior : prior <+: acts)
    (hstack : (after prior {}).stack = k :: rest) :
    ∃ before since, prior = before ++ .push k :: since ∧ Balanced since ∧
      (after before {}).stack = rest := by
  -- A pop uncovers what a prior push has put on the stack, so the claim is on all that is prior.
  induction acts using List.reverseRecOn generalizing prior k rest with
  | nil =>
    rw [List.prefix_nil.1 hprior] at hstack
    cases hstack
  | append_singleton acts act ih =>
    rcases List.prefix_concat_iff.1 hprior with rfl | hprior
    · rw [after_append] at hstack
      cases act with
      | create scene =>
        obtain ⟨before, since, rfl, hsince, hrest⟩ := ih List.prefix_rfl hstack
        exact ⟨before, since ++ [.create scene], by simp, hsince.append (.create scene .nil), hrest⟩
      | push number =>
        rw [after_push, next_push] at hstack
        obtain ⟨rfl, rfl⟩ := List.cons_eq_cons.1 hstack
        exact ⟨acts, [], rfl, .nil, rfl⟩
      | pop =>
        rw [after_pop, after_nil, stack_pop] at hstack
        cases htop : (after acts {}).stack with
        | nil => simp [htop] at hstack
        | cons top below =>
          rw [htop, List.tail_cons] at hstack
          obtain ⟨middle, inner, rfl, hinner, hbelow⟩ := ih List.prefix_rfl htop
          obtain ⟨before, since, rfl, hsince, hrest⟩ :=
            ih (List.prefix_append middle _) (hbelow.trans hstack)
          exact ⟨before, since ++ .push top :: (inner ++ [.pop]), by simp,
            hsince.append (.push top hinner .nil), hrest⟩
    · exact ih hprior hstack

theorem current?_eq_some_iff : (after acts {}).current? = some k ↔ NewestOpen acts k := by
  refine ⟨fun h => ?_, current?_of_newestOpen⟩
  obtain ⟨rest, hstack⟩ := List.head?_eq_some_iff.1 h
  obtain ⟨before, since, heq, hsince, -⟩ := exists_push_of_stack List.prefix_rfl hstack
  exact ⟨before, since, heq, hsince⟩

/-! ## In step -/

/-- What is asked of a stage: it holds exactly the scenes on its stack, and exactly the shops among
them have a sell list. -/
structure InStep (stage : Stage) : Prop where
  held : ∀ k scene, stage.scene? k = some scene → (scene.managed = true ↔ k ∈ stage.stack)
  sells : ∀ k shop, stage.shop? k = some shop → (shop.sellList.isSome = true ↔ k ∈ stage.stack)

/-- **Scenes live exactly while they are on the stack, unless one is popped that stays there.** After
any acts, a scene lives if it was pushed and no pop has returned it since then, and it is on the
stack as long as that is so. The stage is in step with its stack exactly if this can be said of
every scene on the stack. A pop returns the scene of the newest push whose pop has not come yet, and
nothing exactly if nothing is on the stack. -/
theorem inStep_iff (h : Proper acts) (hstage : after acts {} = stage) :
    (stage.InStep ↔ ∀ k ∈ stage.stack, LastPushed acts k) ∧
    (∀ k scene, stage.scene? k = some scene →
      (scene.managed = true ↔ LastPushed acts k) ∧
      ∀ shop ∈ scene.shop, (shop.sellList.isSome = true ↔ LastPushed acts k)) ∧
    (∀ k, LastPushed acts k → k ∈ stage.stack) ∧
    ∃ answer, (pop.perform stage).1 = .ok answer ∧ (∀ k, answer = some k ↔ NewestOpen acts k) ∧
      (answer = none ↔ stage.stack = []) := by
  obtain ⟨hlives, hon, hknown⟩ := follows_of_proper h
  subst hstage
  refine ⟨⟨fun hstep k hk => ?_, fun hlast => ⟨fun k scene hscene => ?_, fun k shop hshop => ?_⟩⟩,
    fun k scene hscene => ⟨(hlives k scene hscene).managed, (hlives k scene hscene).sellList⟩,
    hon, (after acts {}).current?, by rw [perform_pop], fun k => current?_eq_some_iff, ?_⟩
  · obtain ⟨scene, hscene⟩ := hknown k hk
    exact (hlives k scene hscene).managed.1 ((hstep.held k scene hscene).2 hk)
  · exact (hlives k scene hscene).managed.trans ⟨hon k, hlast k⟩
  · obtain ⟨scene, hscene, hshop⟩ := Option.bind_eq_some_iff.1 hshop
    exact ((hlives k scene hscene).sellList shop hshop).trans ⟨hon k, hlast k⟩
  · rw [current?, List.head?_eq_none_iff]

/-- A shop that buys item 1, as it is made. -/
def firstItemShop : Scene where
  shop := some { goods := [], restrictions := some (.ofRules [(.itemIds, .int 1)]) }

/-- A scene that is no shop, as it is made. -/
def otherScene : Scene := { shop := none }

theorem isNew_firstItemShop : firstItemShop.IsNew := by
  refine ⟨rfl, fun shop hshop => ?_, fun shop hshop r hr => ?_⟩
  · cases hshop
    rfl
  · cases hshop
    cases hr
    refine RestrictionSet.typed_ofRules fun x hx => ?_
    rw [List.mem_singleton.1 hx]
    exact RestrictionSet.suits_int (by decide) 1

theorem isNew_otherScene : otherScene.IsNew := ⟨rfl, nofun, nofun⟩

/-- A shop is opened and closed. -/
def closedAgain : List Act := [.create firstItemShop, .create otherScene, .push 0, .pop]

/-- The shop is opened again, and another scene is opened above it. -/
def reopened : List Act := closedAgain ++ [.push 0] ++ [.push 1]

theorem proper_reopened : Proper reopened := by
  have hcreated : Proper [.create firstItemShop, .create otherScene] :=
    .create (.create .nil isNew_firstItemShop) isNew_otherScene
  have hclosed : Proper closedAgain := .pop (.push hcreated (by decide +kernel))
  exact .push (.push hclosed (by decide +kernel)) (by decide +kernel)

/-- Both scenes are on the stack and live, and the one above is popped first. -/
theorem reopened_shop_is_in_step :
    Proper reopened ∧ (after reopened {}).InStep ∧ (after reopened {}).stack = [1, 0] ∧
      (pop.perform (after reopened {})).1 = .ok (some 1) := by
  have hstack : (after reopened {}).stack = [1, 0] := by decide +kernel
  obtain ⟨hstep, -, -, answer, hanswer, hnewest, -⟩ := inStep_iff proper_reopened rfl
  refine ⟨proper_reopened, hstep.2 fun k hk => ?_, hstack, ?_⟩
  · rw [hstack, List.mem_cons, List.mem_singleton] at hk
    rcases hk with rfl | rfl
    · exact lastPushed_push.2 (.inl rfl)
    · exact lastPushed_push.2 (.inr (lastPushed_push.2 (.inl rfl)))
  · rw [hanswer, (hnewest 1).2 ⟨closedAgain ++ [.push 0], [], rfl, .nil⟩]

/-- A shop is opened twice and closed once. -/
def openedTwice : List Act := [.create firstItemShop] ++ [.push 0] ++ [.push 0] ++ [.pop]

/-- A shop that was opened twice and closed once is on the stack, but the stage does not hold it and
it has no sell list. -/
theorem shop_on_stack_is_closed :
    Proper openedTwice ∧ ¬ (after openedTwice {}).InStep ∧ (after openedTwice {}).stack = [0] ∧
      (after openedTwice {}).scene? 0 = some firstItemShop.popped := by
  have hproper : Proper openedTwice :=
    .pop (.push (.push (.create .nil isNew_firstItemShop) (by decide +kernel)) (by decide +kernel))
  have hstack : (after openedTwice {}).stack = [0] := by decide +kernel
  have hscene : (after openedTwice {}).scene? 0 = some firstItemShop.popped := by decide +kernel
  refine ⟨hproper, fun hstep => ?_, hstack, hscene⟩
  have hheld := (hstep.held 0 _ hscene).2 (by simp [hstack])
  cases hheld

end Stage

end SellRules
