import SellRules.Proofs.Event.Growth

/-!
# What an interpreter sees and reaches

Of the game that it shares an interpreter sees whether there is a battle, and nothing else; it reaches
the stage, where it opens new shops above those that are there, and nothing else. `Play.Local` says
both of an action at once, by two plays that look the same to the interpreter: the action gives one
answer in both, leaves the interpreter alike in both, and opens the same shops on both stages. Every
action of an interpreter is local: `Play.local_execute` for one command, `Play.local_run` for a run.
-/

set_option autoImplicit false

namespace SellRules

/-- The scene of a shop that the stage holds as open. -/
def Shop.onStage (shop : Shop) : Scene where
  shop := some shop
  managed := true

namespace Stage

/-- The stage on which more shops were created and opened, one after the other. -/
def grown (more : List Shop) (stage : Stage) : Stage where
  scenes := stage.scenes ++ more.map Shop.onStage
  stack := (List.range' stage.scenes.length more.length).reverse ++ stage.stack

@[simp] theorem grown_nil (stage : Stage) : stage.grown [] = stage := by
  simp [grown]

@[simp] theorem scenes_grown (more : List Shop) (stage : Stage) :
    (stage.grown more).scenes = stage.scenes ++ more.map Shop.onStage := rfl

theorem grown_grown (more rest : List Shop) (stage : Stage) :
    (stage.grown more).grown rest = stage.grown (more ++ rest) := by
  have hnumbers : List.range' stage.scenes.length (more ++ rest).length =
      List.range' stage.scenes.length more.length ++
        List.range' (stage.scenes.length + more.length) rest.length := by
    rw [List.length_append, List.range'_append_1]
  simp only [grown, List.length_append, List.length_map, List.map_append, List.append_assoc]
    at hnumbers ⊢
  rw [hnumbers, List.reverse_append, List.append_assoc]

theorem raised_eq_grown (shop : Shop) (stage : Stage) :
    stage.raised shop = stage.grown [shop.pushed] := rfl

/-- Pushing the scene that was created last fails exactly if its sell list cannot be made. -/
theorem answer_push_created (shop : Shop) (stage : Stage) :
    ((push stage.scenes.length).perform
        { stage with scenes := stage.scenes ++ [{ shop := some shop }] }).1 =
      (fun _ => ()) <$> shop.enter := by
  simp only [push, Action.perform_bind, Action.perform_modify, Action.perform_get, updateScene,
    modify_length_append, shop?, scene?, List.getElem?_concat_length, Option.bind_some,
    Action.perform_ofExcept]
  cases shop.enter with
  | error f => rfl
  | ok next => rfl

end Stage

namespace Play

variable {α β : Type}

/-- Two plays that look the same to their interpreters. -/
structure Alike (p q : Play) : Prop where
  interpreter : p.interpreter = q.interpreter
  inBattle : p.game.party.inBattle = q.game.party.inBattle

/-- The play with an interpreter that has moved on and put more shops on the stage. -/
def reached (i : Interpreter) (more : List Shop) (p : Play) : Play where
  interpreter := i
  game := { p.game with stage := p.game.stage.grown more }

theorem reached_reached (i j : Interpreter) (more rest : List Shop) (p : Play) :
    (p.reached i more).reached j rest = p.reached j (more ++ rest) := by
  simp only [reached, Stage.grown_grown]

theorem reached_nil (i : Interpreter) (p : Play) :
    p.reached i [] = { p with interpreter := i } := by
  simp only [reached, Stage.grown_nil]

theorem Alike.reached {p q : Play} (h : Alike p q) (i : Interpreter) (more : List Shop) :
    Alike (p.reached i more) (q.reached i more) :=
  ⟨rfl, h.inBattle⟩

/-- An action that sees and reaches no more than an interpreter may. -/
def Local (a : Action Play α) : Prop :=
  ∀ p q, Alike p q → ∃ answer i more,
    a.perform p = (answer, p.reached i more) ∧ a.perform q = (answer, q.reached i more)

/-! ## How local actions are put together -/

/-- An action that only works on the interpreter is local. -/
theorem local_of_perform {a : Action Play α} {f : Interpreter → Except Failure α × Interpreter}
    (h : ∀ p, a.perform p = ((f p.interpreter).1, { p with interpreter := (f p.interpreter).2 })) :
    Local a := by
  intro p q hpq
  refine ⟨(f p.interpreter).1, (f p.interpreter).2, [], ?_, ?_⟩
  · rw [h, reached_nil]
  · rw [h, reached_nil, hpq.interpreter]

theorem local_ofExcept (r : Except Failure α) : Local (Action.ofExcept r) :=
  local_of_perform (f := fun i => (r, i)) fun _ => rfl

theorem local_pure (x : α) : Local (pure x) := local_ofExcept (.ok x)

theorem local_onRegistry (a : Action Registry α) : Local (onRegistry a) :=
  local_of_perform
    (f := fun i => ((a.perform i.registry).1, { i with registry := (a.perform i.registry).2 }))
    fun _ => rfl

theorem local_updateInterpreter (f : Interpreter → Interpreter) : Local (updateInterpreter f) :=
  local_of_perform (f := fun i => (.ok (), f i)) fun _ => rfl

theorem Local.bind {a : Action Play α} {k : α → Action Play β} (ha : Local a)
    (hk : ∀ x, Local (k x)) : Local (a >>= k) := by
  intro p q hpq
  obtain ⟨answer, i, more, hp, hq⟩ := ha p q hpq
  rw [Action.perform_bind, Action.perform_bind, hp, hq]
  cases answer with
  | error f => exact ⟨.error f, i, more, rfl, rfl⟩
  | ok x =>
    obtain ⟨last, j, rest, hp, hq⟩ := hk x _ _ (hpq.reached i more)
    refine ⟨last, j, more ++ rest, ?_, ?_⟩
    · rw [← reached_reached i]
      exact hp
    · rw [← reached_reached i]
      exact hq

/-- What goes on from a look at the play is local if it is the same for plays that look the same. -/
theorem local_get_bind {k : Play → Action Play α} (hk : ∀ p, Local (k p))
    (hsame : ∀ p q, Alike p q → k p = k q) : Local (get >>= k) := by
  intro p q hpq
  rw [Action.perform_bind, Action.perform_bind, Action.perform_get, Action.perform_get]
  obtain ⟨answer, i, more, hp, hq⟩ := hk p p q hpq
  rw [hsame p q hpq] at hq
  exact ⟨answer, i, more, hp, hq⟩

/-- A new shop opens in the same way on every stage. -/
theorem local_createShop (shop : Shop) :
    Local (do
      let number ← onStage (Stage.create { shop := some shop })
      onStage (Stage.push number)) := by
  have hperform (p : Play) :
      (do let number ← onStage (Stage.create { shop := some shop })
          onStage (Stage.push number) : Action Play Unit).perform p =
        ((fun _ => ()) <$> shop.enter,
          p.reached p.interpreter [shop.pushed]) := by
    rw [Action.perform_bind, perform_onStage, Stage.perform_create]
    simp only [perform_onStage, Stage.perform_push_created, Stage.answer_push_created,
      Stage.raised_eq_grown]
    rfl
  intro p q hpq
  refine ⟨_, p.interpreter, _, hperform p, ?_⟩
  rw [hperform q, hpq.interpreter]

/-! ## The actions of an interpreter -/

theorem local_setup (commands : List Command) (eventId : Value) :
    Local (setup commands eventId) :=
  (local_updateInterpreter _).bind fun _ => local_onRegistry Registry.reset

/-- An action that declares what the interpreter decides on is local. -/
theorem local_of_declared {a : Action Play Unit}
    {d : Interpreter → Except Failure (Option RestrictionSet)}
    (h : ∀ p, a.perform p = declared (d p.interpreter) p) : Local a := by
  have hdeclared (d : Except Failure (Option RestrictionSet)) :
      ∃ answer, ∃ f : Interpreter → Interpreter,
        ∀ p, declared d p = (answer, { p with interpreter := f p.interpreter }) := by
    rcases d with f | (_ | r)
    · exact ⟨.error f, id, fun _ => rfl⟩
    · exact ⟨.ok (), id, fun _ => rfl⟩
    · exact ⟨.ok (), fun i => { i with registry := { pending := some r } }, fun _ => rfl⟩
  intro p q hpq
  obtain ⟨answer, f, hf⟩ := hdeclared (d p.interpreter)
  refine ⟨answer, f p.interpreter, [], ?_, ?_⟩
  · rw [h, hf, reached_nil]
  · rw [h, ← hpq.interpreter, hf, reached_nil, hpq.interpreter]

theorem local_textCommand (parameters : List Value) : Local (textCommand parameters) :=
  local_of_declared (d := fun i => Command.textDeclaration i.settings parameters)
    (perform_textCommand parameters)

theorem local_pluginCommand (parameters : List Value) : Local (pluginCommand parameters) :=
  local_of_declared (d := fun i => Command.pluginDeclaration i.settings parameters)
    (perform_pluginCommand parameters)

theorem local_collectGoods (lines : List Command) : Local (collectGoods lines) := by
  induction lines with
  | nil => exact local_pure []
  | cons line rest ih =>
    refine (local_updateInterpreter _).bind fun _ => ?_
    refine (local_ofExcept _).bind fun good => ?_
    exact ih.bind fun more => local_pure (good :: more)

/-- Whether a shop opens, what it sells and under which restrictions is a matter of the interpreter
and of the battle. -/
theorem local_openShop (parameters : List Value) : Local (openShop parameters) := by
  refine (local_ofExcept _).bind fun first => ?_
  apply local_get_bind
  · intro p
    refine (local_collectGoods _).bind fun more => ?_
    apply local_get_bind
    · intro p
      split
      · exact local_pure ()
      · refine (local_onRegistry _).bind fun restrictions => ?_
        apply local_get_bind
        · intro p
          exact local_createShop _
        · intro p q hpq
          rw [hpq.interpreter]
    · intro p q hpq
      rw [hpq.inBattle]
  · intro p q hpq
    rw [hpq.interpreter]

theorem local_execute (c : Command) : Local (execute c) := by
  unfold execute
  split
  · exact local_openShop c.parameters
  · split
    · exact local_textCommand c.parameters
    · split
      · exact local_pluginCommand c.parameters
      · exact local_pure ()

theorem local_runFor (limit : Nat) : Local (runFor limit) := by
  induction limit with
  | zero => exact local_pure ()
  | succ limit ih =>
    apply local_get_bind
    · intro p
      split
      · exact local_pure ()
      · refine (local_execute _).bind fun _ => ?_
        exact (local_updateInterpreter _).bind fun _ => ih
    · intro p q hpq
      rw [hpq.interpreter]

theorem local_run : Local run := by
  apply local_get_bind
  · intro p
    exact local_runFor _
  · intro p q hpq
    rw [hpq.interpreter]

end Play
end SellRules
