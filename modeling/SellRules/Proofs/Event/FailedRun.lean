import SellRules.Proofs.Event.Run

/-!
# Runs that fail

A run that fails leaves what the commands before the failing one left. The commands up to the
failing one are cut off from the rest (`Play.cut`); rounds that end before the cut do not see it
(`Rounds.cut`), so the run of the cut commands goes through the same rounds and stops where the
whole run failed. The failing command itself changes neither the registry nor the game.
-/

set_option autoImplicit false

namespace SellRules.Play

/-- Sets an event up and runs it. -/
def runEvent (commands : List Command) (eventId : Value) : Action Play Unit := do
  setup commands eventId
  run

/-- The play in which an event was set up. -/
def started (commands : List Command) (eventId : Value) (p : Play) : Play :=
  { p with interpreter :=
    { p.interpreter with commands, eventId, position := 0, registry := { pending := none } } }

theorem listable_started (commands : List Command) (eventId : Value) (p : Play) :
    (p.started commands eventId).Listable := by
  intro r hr
  cases hr

theorem perform_setup_runFor (commands : List Command) (eventId : Value) (limit : Nat) (p : Play) :
    (do setup commands eventId; runFor limit : Action Play Unit).perform p =
      (runFor limit).perform (p.started commands eventId) := rfl

theorem perform_runEvent (commands : List Command) (eventId : Value) (p : Play) :
    (runEvent commands eventId).perform p =
      (runFor commands.length).perform (p.started commands eventId) := rfl

/-! ## Cut commands -/

/-- The play whose commands end at a position. -/
def cut (j : Nat) (p : Play) : Play :=
  { p with interpreter := { p.interpreter with commands := p.interpreter.commands.take j } }

theorem started_cut (commands : List Command) (eventId : Value) (j : Nat) (p : Play) :
    (p.started commands eventId).cut j = p.started (commands.take j) eventId := rfl

theorem apply_cut (e : Effect) (j n : Nat) (p : Play) :
    (e.apply ((p.cut j).moved n)).moved 1 = ((e.apply (p.moved n)).moved 1).cut j := by
  cases e <;> rfl

theorem current?_cut {j : Nat} {p : Play} (h : p.interpreter.position < j) :
    (p.cut j).interpreter.current? = p.interpreter.current? :=
  List.getElem?_take_of_lt h

theorem goodsAhead_cut (j : Nat) (p : Play) :
    (p.cut j).interpreter.goodsAhead =
      p.interpreter.goodsAhead.take (j - (p.interpreter.position + 1)) := by
  simp only [Interpreter.goodsAhead, cut, List.drop_take, List.take_takeWhile]

/-- A command whose lines of goods end before the cut does what it does without the cut. -/
theorem round_cut {j : Nat} {p : Play} {c : Command} {e : Effect} (he : p.effectOf c = .ok e)
    (hj : (p.after c e).interpreter.position ≤ j) :
    (p.cut j).effectOf c = .ok e ∧ (p.cut j).after c e = (p.after c e).cut j := by
  have htaken := linesTaken_of_effect he
  rw [position_after, htaken] at hj
  by_cases hs : c.code = Command.shopCode
  · rw [if_pos hs] at hj
    have hahead : (p.cut j).interpreter.goodsAhead = p.interpreter.goodsAhead := by
      rw [goodsAhead_cut, List.take_of_length_le (by omega)]
    constructor
    · rw [effectOf, hahead]
      exact he
    · rw [after, hahead]
      exact apply_cut e j _ p
  · constructor
    · rw [effectOf, Command.effect, if_neg hs] at he ⊢
      exact he
    · have htaken' : c.linesTaken (p.cut j).interpreter.goodsAhead = 0 := by
        simp [Command.linesTaken, hs]
      rw [if_neg hs] at htaken
      rw [after, after, htaken, htaken']
      exact apply_cut e j 0 p

/-- Rounds that end before the cut do not see it. -/
theorem Rounds.cut {n j : Nat} {p q : Play} (h : Rounds n p q)
    (hj : q.interpreter.position ≤ j) : Rounds n (p.cut j) (q.cut j) := by
  induction h with
  | refl p => exact .refl _
  | @step n p q c e hc he hrest ih =>
    have hafter : (p.after c e).interpreter.position ≤ j := by
      have := hrest.position_le
      omega
    have hlt : p.interpreter.position < j := by
      rw [position_after] at hafter
      omega
    obtain ⟨heffect, hround⟩ := round_cut he hafter
    refine .step ((current?_cut hlt).trans hc) heffect ?_
    rw [hround]
    exact ih hj

/-! ## The failing command -/

/-- Only shops and plugin commands fail. -/
theorem code_of_effect_error {p : Play} {c : Command} {f : Failure} (h : p.effectOf c = .error f) :
    c.code = Command.shopCode ∨ c.code = Command.textCode ∨ c.code = Command.pluginCode := by
  by_cases hs : c.code = Command.shopCode
  · exact .inl hs
  by_cases ht : c.code = Command.textCode
  · exact .inr (.inl ht)
  by_cases hq : c.code = Command.pluginCode
  · exact .inr (.inr hq)
  rw [effectOf, Command.effect, if_neg hs, Command.declaration, if_neg ht, if_neg hq] at h
  cases h

/-- **A failing run has exactly the effect of the commands before the failing one.** After some
rounds it is the turn of a shop or plugin command, and the run fails by carrying that out. The
commands before it, set up and run on their own, do not fail, and they leave the same restrictions
waiting, the same stage and the same party. -/
theorem failed_run_leaves_run_before {start final : Play} {commands : List Command}
    {eventId : Value} {f : Failure}
    (h : (runEvent commands eventId).perform start = (.error f, final)) :
    ∃ n c reached before,
      (do setup commands eventId; runFor n : Action Play Unit).perform start = (.ok (), reached) ∧
      commands[reached.interpreter.position]? = some c ∧
      (c.code = Command.shopCode ∨ c.code = Command.textCode ∨ c.code = Command.pluginCode) ∧
      (execute c).perform reached = (.error f, final) ∧
      final.interpreter.registry = reached.interpreter.registry ∧ final.game = reached.game ∧
      (runEvent (commands.take reached.interpreter.position) eventId).perform start =
        (.ok (), before) ∧
      final.interpreter.registry = before.interpreter.registry ∧ final.game = before.game := by
  have hstart := listable_started commands eventId start
  rw [perform_runEvent] at h
  obtain ⟨n, reached, c, hrounds, hc, he, rfl⟩ := perform_runFor_error hstart h
  have hcommands : reached.interpreter.commands = commands := hrounds.commands
  rw [Interpreter.current?, hcommands] at hc
  obtain ⟨hlt, -⟩ := List.getElem?_eq_some_iff.1 hc
  refine ⟨n, c, reached, reached.cut reached.interpreter.position, ?_, hc,
    code_of_effect_error he, ?_, rfl, rfl, ?_, rfl, rfl⟩
  · have hrun := hrounds.perform_runFor hstart 0
    rw [Nat.add_zero] at hrun
    rw [perform_setup_runFor, hrun]
    rfl
  · rw [perform_execute (hrounds.listable hstart), he]
    rfl
  · have hle : n ≤ reached.interpreter.position := by
      have := hrounds.position_le
      simpa [started] using this
    have hend : (reached.cut reached.interpreter.position).interpreter.current? = none :=
      List.getElem?_eq_none (List.length_take_le _ _)
    have hlength : (commands.take reached.interpreter.position).length =
        n + (reached.interpreter.position - n) := by
      rw [List.length_take]
      omega
    have hcut := hrounds.cut (Nat.le_refl _)
    rw [started_cut] at hcut
    rw [perform_runEvent, hlength, hcut.perform_runFor (listable_started _ _ _),
      perform_runFor_done hend]

/-- A shop that opens, a declaration, and a shop whose second line of goods is empty. -/
def brokenShop : List Command := [
  { code := Command.shopCode, parameters := [.int 0, .int 1, .int 0, .int 0] },
  { code := Command.pluginCode, parameters := [.text "LWP_WhatShopCanBuy", .text "buy_only", .null,
    .object [("restrictions", .object [("itemId", .list [.int 1])])]] },
  { code := Command.shopCode, parameters := [.int 0, .int 1, .int 0, .int 0] },
  { code := Command.goodsCode }]

/-- The broken shop leaves what the first shop and the declaration left. -/
theorem broken_shop_leaves_run_before :
    ∃ final c reached before,
      (runEvent brokenShop (.int 1)).perform ⟨{}, {}⟩ = (.error .noElement, final) ∧
      brokenShop[reached.interpreter.position]? = some c ∧
      (execute c).perform reached = (.error .noElement, final) ∧
      (runEvent (brokenShop.take reached.interpreter.position) (.int 1)).perform ⟨{}, {}⟩ =
        (.ok (), before) ∧
      final.interpreter.registry = before.interpreter.registry ∧ final.game = before.game := by
  obtain ⟨-, c, reached, before, -, hc, -, hfails, -, -, hbefore, hregistry, hgame⟩ :=
    @failed_run_leaves_run_before ⟨{}, {}⟩ _ brokenShop (.int 1) .noElement rfl
  exact ⟨_, c, reached, before, rfl, hc, hfails, hbefore, hregistry, hgame⟩

end SellRules.Play
