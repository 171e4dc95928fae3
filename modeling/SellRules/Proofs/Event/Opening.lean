import SellRules.Proofs.Event.Declaration
import SellRules.Proofs.Event.FailedRun

/-!
# An event that opens a shop

An event may declare restrictions by a text command with any tokens and then open a shop. It runs to
its end, and the shop is open under what the tokens mean, or under no restrictions if there are no
tokens (`Play.exists_perform_event`).
-/

set_option autoImplicit false

namespace SellRules

/-- The restrictions that tokens declare; without tokens there are none. -/
def Token.declared : List String → Except Failure (Option RestrictionSet)
  | [] => .ok none
  | token :: tokens => some <$> parse (token :: tokens)

/-- A text command. -/
def Command.ofText (text : String) : Command where
  code := textCode
  parameters := [.text text]

/-- The command that declares tokens by a text; without tokens there is none. -/
def Command.declaring (tokens : List String) (text : String) : List Command :=
  if tokens.isEmpty then [] else [ofText text]

namespace Play

variable {p q : Play} {c shop : Command} {lines rest : List Command}

/-! ## Runs from rounds -/

/-- There are no more rounds than commands that are left. -/
theorem Rounds.le_length_remaining {n : Nat} (h : Rounds n p q) : n ≤ p.remaining.length := by
  induction h with
  | refl p => exact Nat.zero_le _
  | step current effect _ ih =>
    obtain ⟨lines, -, hremaining⟩ := remaining_eq_of_round current effect
    rw [hremaining, List.length_cons, List.length_append]
    omega

/-- Rounds from the beginning of an event to its end are its run. -/
theorem Rounds.perform_runEvent {n : Nat} {commands : List Command} {eventId : Value}
    (h : Rounds n (p.started commands eventId) q) (hend : q.interpreter.current? = none) :
    (runEvent commands eventId).perform p = (.ok (), q) := by
  -- the limit of a run is the number of its commands, and each round takes at least one of them
  obtain ⟨limit, hlimit⟩ := Nat.exists_eq_add_of_le h.le_length_remaining
  have hlength : commands.length = n + limit := hlimit
  rw [Play.perform_runEvent, hlength, h.perform_runFor (listable_started commands eventId p),
    perform_runFor_done hend]

/-- An event that runs to its end consists of rounds up to there. -/
theorem exists_rounds_of_runEvent {commands : List Command} {eventId : Value}
    (h : (runEvent commands eventId).perform p = (.ok (), q)) :
    ∃ n, Rounds n (p.started commands eventId) q ∧ q.interpreter.current? = none := by
  rw [Play.perform_runEvent] at h
  exact exists_rounds_of_runFor (listable_started commands eventId p) h

/-! ## The current command -/

theorem current_of_remaining (h : p.remaining = c :: rest) : p.interpreter.current? = some c := by
  rw [Interpreter.current?, ← List.head?_drop]
  exact congrArg List.head? h

/-- The lines of goods ahead are those at the beginning of what is left after the current command. -/
theorem goodsAhead_of_remaining (h : p.remaining = c :: rest) :
    p.interpreter.goodsAhead = rest.takeWhile fun line => line.code = Command.goodsCode := by
  have hrest : p.interpreter.commands.drop (p.interpreter.position + 1) = rest := by
    rw [← List.tail_drop]
    exact congrArg List.tail h
  rw [Interpreter.goodsAhead, hrest]

/-! ## Two rounds -/

/-- The round of a text command that declares restrictions. -/
theorem round_of_text {r : RestrictionSet} (hcode : c.code = Command.textCode)
    (hdeclares : Command.textDeclaration p.interpreter.settings c.parameters = .ok (some r)) :
    p.effectOf c = .ok (.declares r) ∧ p.after c (.declares r) = (p.waiting (some r)).moved 1 := by
  have hnotShop : c.code ≠ Command.shopCode := by
    rw [hcode]
    decide
  have heffect : p.effectOf c = .ok (.declares r) := by
    rw [effectOf, Command.effect, if_neg hnotShop, Command.declaration, if_pos hcode, hdeclares]
    rfl
  refine ⟨heffect, ?_⟩
  rw [after, linesTaken_of_effect heffect, if_neg hnotShop]
  rfl

/-- The last round of an event: a shop command behind which there are only lines of goods. -/
theorem round_of_shop (hcode : shop.code = Command.shopCode)
    (hremaining : p.remaining = shop :: lines)
    (hlines : ∀ line ∈ lines, line.code = Command.goodsCode) {goods : List Good}
    (hgoods : shop.goods lines = .ok goods) (hpeace : p.game.party.inBattle.truthy = false) :
    ∃ q, Rounds 1 p q ∧ q.interpreter.current? = none ∧ q.game.party = p.game.party ∧
      q.game.stage = p.game.stage.opened (p.shopWith goods shop.purchaseOnly) := by
  have hahead : p.interpreter.goodsAhead = lines := by
    rw [goodsAhead_of_remaining hremaining]
    exact List.takeWhile_eq_self_iff.2 fun line hline => decide_eq_true (hlines line hline)
  have heffect : p.effectOf shop = .ok (.opens goods shop.purchaseOnly) := by
    rw [effectOf, Command.effect, if_pos hcode, hahead, hgoods, hpeace]
    rfl
  refine ⟨_, .step (current_of_remaining hremaining) heffect (.refl _), ?_, rfl, rfl⟩
  have hlength : p.interpreter.commands.length - p.interpreter.position = lines.length + 1 := by
    rw [← List.length_drop, ← List.length_cons (a := shop), ← hremaining]
    rfl
  rw [Interpreter.current?, position_after, commands_after, linesTaken_of_effect heffect,
    if_pos hcode, hahead]
  exact List.getElem?_eq_none (by omega)

/-! ## The event -/

/-- An event that only opens a shop. -/
theorem exists_perform_shop (hcode : shop.code = Command.shopCode)
    (hlines : ∀ line ∈ lines, line.code = Command.goodsCode) {goods : List Good}
    (hgoods : shop.goods lines = .ok goods) (hpeace : p.game.party.inBattle.truthy = false)
    (eventId : Value) :
    ∃ q, (runEvent (shop :: lines) eventId).perform p = (.ok (), q) ∧
      q.game.party = p.game.party ∧
      q.game.stage = p.game.stage.opened ((p.waiting none).shopWith goods shop.purchaseOnly) := by
  have hremaining : (p.started (shop :: lines) eventId).remaining = shop :: lines := rfl
  obtain ⟨q, hround, hend, hparty, hstage⟩ :=
    round_of_shop hcode hremaining hlines hgoods hpeace
  exact ⟨q, hround.perform_runEvent hend, hparty, hstage⟩

/-- An event that declares restrictions by a text and then opens a shop. -/
theorem exists_perform_declaring {r : RestrictionSet} (htext : c.code = Command.textCode)
    (hdeclares : Command.textDeclaration p.interpreter.settings c.parameters = .ok (some r))
    (hcode : shop.code = Command.shopCode) (hlines : ∀ line ∈ lines, line.code = Command.goodsCode)
    {goods : List Good} (hgoods : shop.goods lines = .ok goods)
    (hpeace : p.game.party.inBattle.truthy = false) (eventId : Value) :
    ∃ q, (runEvent (c :: shop :: lines) eventId).perform p = (.ok (), q) ∧
      q.game.party = p.game.party ∧ q.game.stage =
        p.game.stage.opened ((p.waiting (some r)).shopWith goods shop.purchaseOnly) := by
  have hstart : (p.started (c :: shop :: lines) eventId).remaining = c :: shop :: lines := rfl
  obtain ⟨heffect, hafter⟩ :=
    round_of_text (p := p.started (c :: shop :: lines) eventId) htext hdeclares
  have hnext : (((p.started (c :: shop :: lines) eventId).waiting (some r)).moved 1).remaining =
      shop :: lines := rfl
  obtain ⟨q, hround, hend, hparty, hstage⟩ := round_of_shop hcode hnext hlines hgoods hpeace
  rw [← hafter] at hround
  have hrounds : Rounds 2 (p.started (c :: shop :: lines) eventId) q :=
    .step (current_of_remaining hstart) heffect hround
  exact ⟨q, hrounds.perform_runEvent hend, hparty, hstage⟩

/-- An event with the standard settings that declares tokens by a text, if there are any, and then
opens a shop: it runs to its end, and the shop is open under the restrictions of the tokens. -/
theorem exists_perform_event {tokens : List String} {text : String} {r : Option RestrictionSet}
    (hsettings : p.interpreter.settings = {}) (hpeace : p.game.party.inBattle.truthy = false)
    (htokens : ∀ token ∈ tokens, Text.IsWord token.toList) (hr : Token.declared tokens = .ok r)
    (htext : tokens ≠ [] →
      Text.Spaced (("BUY_ONLY" :: tokens).map String.toList) text.toList)
    (hcode : shop.code = Command.shopCode) (hlines : ∀ line ∈ lines, line.code = Command.goodsCode)
    {goods : List Good} (hgoods : shop.goods lines = .ok goods) (eventId : Value) :
    ∃ q, (runEvent (Command.declaring tokens text ++ shop :: lines) eventId).perform p =
        (.ok (), q) ∧
      q.game.party = p.game.party ∧ q.game.stage = p.game.stage.opened
        { goods, purchaseOnly := .bool shop.purchaseOnly, restrictions := r } := by
  have hshop : (p.waiting r).shopWith goods shop.purchaseOnly =
      { goods, purchaseOnly := .bool shop.purchaseOnly, restrictions := r } := by
    simp only [shopWith, waiting, hsettings]
    rfl
  rw [← hshop]
  cases tokens with
  | nil =>
    cases hr
    exact exists_perform_shop hcode hlines hgoods hpeace eventId
  | cons token tokens =>
    obtain ⟨s, hs, rfl⟩ := map_eq_ok.1 hr
    have hwords : ∀ w ∈ "BUY_ONLY" :: token :: tokens, Text.IsWord w.toList :=
      List.forall_mem_cons.2 ⟨by simp [Text.IsWord, Text.isBlank], htokens⟩
    have hdeclares : Command.textDeclaration p.interpreter.settings
        (Command.ofText text).parameters = .ok (some s) := by
      rw [hsettings]
      exact Command.textDeclaration_of_spaced rfl (by decide +kernel) hwords
        (htext (List.cons_ne_nil _ _)) hs
    exact exists_perform_declaring rfl hdeclares hcode hlines hgoods hpeace eventId

end Play
end SellRules
