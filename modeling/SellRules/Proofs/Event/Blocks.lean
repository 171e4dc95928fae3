import Mathlib.Data.List.Sort
import SellRules.Proofs.Event.HandOver
import SellRules.Proofs.Event.Opening

/-!
# Shop blocks

A shop command and all lines of goods directly after it are a block (`Command.blockAt`). The lines of
a block have no turn of their own (`Command.IsLine`); every other command of an event has one
(`Command.turns`), stray lines of goods among them. A run carries out exactly the commands that have a
turn, each once and in order (`Play.Visits`), and opens one shop for each block, with the goods of
that block. The induction is over rounds and carries `Play.Passes`, what is known of the positions
that were passed.
-/

set_option autoImplicit false

namespace SellRules

/-! ## Positions in a list of commands -/

namespace Command

/-- The code of the command at a position. -/
def codeAt? (commands : List Command) (k : Nat) : Option Int := (commands[k]?).map (·.code)

/-- The command at a position and all lines of goods directly after it. -/
def blockAt (commands : List Command) (k : Nat) : List Command :=
  (commands.drop k).take 1 ++ (commands.drop (k + 1)).takeWhile fun c => c.code = goodsCode

/-- The goods of a block. -/
def goodsAt (commands : List Command) (k : Nat) : Except Failure (List Good) :=
  (blockAt commands k).mapM good

/-- There is a line of goods at a position, with nothing but such lines between it and a shop. -/
def IsLine (commands : List Command) (k : Nat) : Prop :=
  ∃ shop < k, codeAt? commands shop = some shopCode ∧
    ∀ j ≤ k, shop < j → codeAt? commands j = some goodsCode

instance (commands : List Command) : DecidablePred (IsLine commands) := fun k =>
  inferInstanceAs (Decidable (∃ shop < k, codeAt? commands shop = some shopCode ∧
    ∀ j ≤ k, shop < j → codeAt? commands j = some goodsCode))

/-- The positions of the commands that are not lines of a shop, in order. -/
def turns (commands : List Command) : List Nat :=
  (List.range commands.length).filter fun k => ¬ IsLine commands k

/-- The positions of the shops, in order. -/
def shopPositions (commands : List Command) : List Nat :=
  (List.range commands.length).filter fun k => codeAt? commands k = some shopCode

/-- The command at a position does not fail when its turn comes: a shop has a block of goods that can
be read, and any other command declares restrictions or nothing. -/
def Readable (settings : Settings) (commands : List Command) (k : Nat) : Prop :=
  ∃ c, commands[k]? = some c ∧
    if c.code = shopCode then ∃ goods, goodsAt commands k = .ok goods
    else ∃ r, c.declaration settings = .ok r

variable {commands : List Command} {k : Nat}

theorem not_isLine_zero : ¬ IsLine commands 0 := fun ⟨_, hlt, _⟩ => Nat.not_lt_zero _ hlt

theorem isLine_succ : IsLine commands (k + 1) ↔ codeAt? commands (k + 1) = some goodsCode ∧
    (codeAt? commands k = some shopCode ∨ IsLine commands k) := by
  constructor
  · rintro ⟨shop, hlt, hshop, hlines⟩
    refine ⟨hlines _ (Nat.le_refl _) hlt, ?_⟩
    rcases Nat.lt_succ_iff_lt_or_eq.1 hlt with hlt | rfl
    · exact .inr ⟨shop, hlt, hshop, fun j hj => hlines j (by omega)⟩
    · exact .inl hshop
  · rintro ⟨hcode, hshop | ⟨shop, hlt, hshop, hlines⟩⟩
    · refine ⟨k, by omega, hshop, fun j hj hlt => ?_⟩
      obtain rfl : j = k + 1 := by omega
      exact hcode
    · refine ⟨shop, by omega, hshop, fun j hj hsj => ?_⟩
      rcases Nat.le_succ_iff.1 hj with hj | rfl
      · exact hlines j hj hsj
      · exact hcode

theorem codeAt?_of_isLine (h : IsLine commands k) : codeAt? commands k = some goodsCode :=
  h.elim fun _ ⟨hlt, _, hlines⟩ => hlines k (Nat.le_refl k) hlt

theorem mem_turns : k ∈ turns commands ↔ k < commands.length ∧ ¬ IsLine commands k := by
  simp [turns]

/-- A shop has a turn, since it is no line of goods. -/
theorem filter_turns :
    ((turns commands).filter fun k => codeAt? commands k = some shopCode) =
      shopPositions commands := by
  rw [turns, List.filter_filter, shopPositions]
  refine List.filter_congr fun k _ => ?_
  rw [Bool.and_eq_left_iff_imp, decide_eq_true_eq, decide_eq_true_eq]
  intro hshop hline
  rw [codeAt?_of_isLine hline] at hshop
  cases hshop

theorem readable_of_isLine {settings : Settings} (hlt : k < commands.length)
    (h : IsLine commands k) : Readable settings commands k := by
  have hcode := codeAt?_of_isLine h
  rw [codeAt?, List.getElem?_eq_getElem hlt, Option.map_some, Option.some.injEq] at hcode
  refine ⟨commands[k], List.getElem?_eq_getElem hlt, ?_⟩
  rw [hcode, if_neg (by decide)]
  refine ⟨none, ?_⟩
  rw [declaration, hcode, if_neg (by decide), if_neg (by decide)]

theorem goods_eq (c : Command) (ahead : List Command) : c.goods ahead = (c :: ahead).mapM good := by
  rw [List.mapM_cons]
  rfl

end Command

namespace Stage

/-- The stage on which new shops were opened one after the other. -/
def openedAll (shops : List Shop) (stage : Stage) : Stage :=
  shops.foldl (fun stage shop => stage.opened shop) stage

theorem openedAll_cons (shop : Shop) (shops : List Shop) (stage : Stage) :
    stage.openedAll (shop :: shops) = (stage.opened shop).openedAll shops := rfl

theorem scenes_openedAll (shops : List Shop) (stage : Stage) :
    (stage.openedAll shops).scenes = stage.scenes ++ shops.map Shop.scene := by
  induction shops generalizing stage with
  | nil => simp [openedAll]
  | cons shop shops ih =>
    rw [openedAll_cons, ih, List.map_cons, List.append_cons]
    rfl

theorem stack_openedAll (shops : List Shop) (stage : Stage) :
    (stage.openedAll shops).stack =
      (List.range' stage.scenes.length shops.length).reverse ++ stage.stack := by
  induction shops generalizing stage with
  | nil => simp [openedAll]
  | cons shop shops ih =>
    have hlength : (stage.opened shop).scenes.length = stage.scenes.length + 1 := by simp [opened]
    rw [openedAll_cons, ih, hlength, List.length_cons, List.range'_succ, List.reverse_cons,
      List.append_assoc]
    rfl

end Stage

namespace Play

open Command (codeAt? blockAt goodsAt IsLine turns shopPositions Readable)

variable {p q : Play} {c : Command} {e : Effect}

/-! ## The block at the current command -/

theorem codeAt?_current (h : p.interpreter.current? = some c) :
    codeAt? p.interpreter.commands p.interpreter.position = some c.code := by
  have hc : p.interpreter.commands[p.interpreter.position]? = some c := h
  rw [codeAt?, hc, Option.map_some]

theorem goodsAt_current (h : p.interpreter.current? = some c) :
    goodsAt p.interpreter.commands p.interpreter.position = c.goods p.interpreter.goodsAhead := by
  have hfirst : (p.interpreter.commands.drop p.interpreter.position).take 1 = [c] := by
    rw [List.take_one, List.head?_drop]
    exact congrArg Option.toList h
  rw [goodsAt, blockAt, hfirst, Command.goods_eq]
  rfl

/-- A command does something if it is readable where it stands. -/
theorem exists_effectOf_iff (h : p.interpreter.current? = some c) :
    (∃ e, p.effectOf c = .ok e) ↔
      Readable p.interpreter.settings p.interpreter.commands p.interpreter.position := by
  have hc : p.interpreter.commands[p.interpreter.position]? = some c := h
  simp only [Readable, hc, Option.some.injEq, exists_eq_left', goodsAt_current h, effectOf,
    Command.effect]
  split
  · cases c.goods p.interpreter.goodsAhead with
    | error f =>
      constructor
      · rintro ⟨e, he⟩
        cases he
      · rintro ⟨goods, hgoods⟩
        cases hgoods
    | ok goods => exact ⟨fun _ => ⟨goods, rfl⟩, fun _ => ⟨_, rfl⟩⟩
  · cases c.declaration p.interpreter.settings with
    | error f =>
      constructor
      · rintro ⟨e, he⟩
        cases he
      · rintro ⟨found, hfound⟩
        cases hfound
    | ok found => exact ⟨fun _ => ⟨found, rfl⟩, fun _ => by cases found <;> exact ⟨_, rfl⟩⟩

/-- Directly behind the current command there are its lines of goods, and then none. -/
theorem codeAt?_ahead (i : Interpreter) :
    (∀ k, i.position < k → k ≤ i.position + i.goodsAhead.length →
      codeAt? i.commands k = some Command.goodsCode) ∧
    codeAt? i.commands (i.position + i.goodsAhead.length + 1) ≠ some Command.goodsCode := by
  have hget (k : Nat) : i.commands[i.position + 1 + k]? =
      (i.commands.drop (i.position + 1))[k]? := List.getElem?_drop.symm
  -- behind the lines that `takeWhile` takes stands what `dropWhile` leaves
  have hafter : i.commands.drop (i.position + i.goodsAhead.length + 1) =
      (i.commands.drop (i.position + 1)).dropWhile fun c => c.code = Command.goodsCode := by
    have hsplit := drop_eq_goodsAhead i
    rw [← List.takeWhile_append_dropWhile (p := fun c : Command => c.code = Command.goodsCode)
      (l := i.commands.drop (i.position + 1))] at hsplit
    exact (List.append_cancel_left hsplit).symm
  constructor
  · intro k hlt hle
    obtain ⟨j, rfl⟩ := Nat.exists_eq_add_of_le (Nat.succ_le_of_lt hlt)
    have hj : j < i.goodsAhead.length := by omega
    rw [codeAt?, Nat.succ_eq_add_one, hget, drop_eq_goodsAhead, List.getElem?_append_left hj,
      List.getElem?_eq_getElem hj, Option.map_some, code_of_mem_goodsAhead (List.getElem_mem hj)]
  · have hhead := List.head?_dropWhile_not (fun c : Command => decide (c.code = Command.goodsCode))
      (i.commands.drop (i.position + 1))
    rw [← hafter, List.head?_drop] at hhead
    rw [codeAt?]
    cases hnext : i.commands[i.position + i.goodsAhead.length + 1]? with
    | none => simp
    | some next =>
      rw [hnext] at hhead
      simpa using hhead

/-- A round goes past the lines of its shop, and no line of a shop has the next turn. -/
theorem isLine_round (hc : p.interpreter.current? = some c) (he : p.effectOf c = .ok e)
    (hline : ¬ IsLine p.interpreter.commands p.interpreter.position) :
    (∀ k, p.interpreter.position < k → k < (p.after c e).interpreter.position →
      IsLine p.interpreter.commands k) ∧
    ¬ IsLine p.interpreter.commands (p.after c e).interpreter.position := by
  have hcode := codeAt?_current hc
  rw [position_after, linesTaken_of_effect he]
  by_cases hs : c.code = Command.shopCode
  · obtain ⟨hlines, hend⟩ := codeAt?_ahead p.interpreter
    rw [if_pos hs]
    refine ⟨fun k hlt hle => ?_, fun h => hend (Command.codeAt?_of_isLine h)⟩
    exact ⟨p.interpreter.position, hlt, hs ▸ hcode, fun j hj hlt => hlines j hlt (by omega)⟩
  · rw [if_neg hs]
    refine ⟨fun k hlt hle => by omega, fun h => ?_⟩
    rcases (Command.isLine_succ.1 h).2 with hshop | hbefore
    · rw [hcode, Option.some.injEq] at hshop
      exact hs hshop
    · exact hline hbefore

/-! ## What a run passes -/

/-- A play leads to another by carrying out the commands at some positions, one after the other. -/
inductive Visits : List Nat → Play → Play → Prop
  | refl (p : Play) : Visits [] p p
  | step {positions : List Nat} {p q r : Play} {c : Command}
      (current : p.interpreter.current? = some c) (done : (execute c).perform p = (.ok (), q))
      (rest : Visits positions (q.moved 1) r) : Visits (p.interpreter.position :: positions) p r

/-- What is known of the positions at which commands were carried out and of the shops that were
opened meanwhile. -/
structure Passes (positions : List Nat) (shops : List Shop) (p q : Play) : Prop where
  visits : Visits positions p q
  ascending : positions.Pairwise (· < ·)
  mem_iff : ∀ k, k ∈ positions ↔ p.interpreter.position ≤ k ∧ k < q.interpreter.position ∧
    ¬ IsLine p.interpreter.commands k
  readable : ∀ k ∈ positions, Readable p.interpreter.settings p.interpreter.commands k
  game : q.game = { p.game with stage := p.game.stage.openedAll shops }
  /-- A battle keeps all shops closed. -/
  goods : ∃ lists,
    (positions.filter fun k => codeAt? p.interpreter.commands k = some Command.shopCode).mapM
      (goodsAt p.interpreter.commands) = .ok lists ∧
    shops.map (·.goods) = if p.game.party.inBattle.truthy then [] else lists

theorem Passes.refl (p : Play) : Passes [] [] p p where
  visits := .refl p
  ascending := .nil
  mem_iff k := by simp; omega
  readable := by simp
  game := rfl
  goods := ⟨[], rfl, by simp⟩

/-- The shop that a round opens, if it opens any. -/
theorem game_after (he : p.effectOf c = .ok e) :
    ∃ shops : List Shop,
      (p.after c e).game = { p.game with stage := p.game.stage.openedAll shops } ∧
      (c.code ≠ Command.shopCode → shops = []) ∧
      (c.code = Command.shopCode → ∃ goods, c.goods p.interpreter.goodsAhead = .ok goods ∧
        shops.map (·.goods) = if p.game.party.inBattle.truthy then [] else [goods]) := by
  rw [effectOf, Command.effect] at he
  split at he
  next hs =>
    obtain ⟨goods, hgoods, he⟩ := bind_eq_ok.1 he
    cases hb : p.game.party.inBattle.truthy with
    | true =>
      rw [hb] at he
      cases he
      exact ⟨[], rfl, fun _ => rfl, fun _ => ⟨goods, hgoods, rfl⟩⟩
    | false =>
      rw [hb] at he
      cases he
      exact ⟨[_], rfl, fun h => absurd hs h, fun _ => ⟨goods, hgoods, rfl⟩⟩
  next hs =>
    obtain ⟨found, -, he⟩ := bind_eq_ok.1 he
    refine ⟨[], ?_, fun _ => rfl, fun h => absurd h hs⟩
    cases found <;> cases he <;> rfl

/-- One more position in front of those that were passed: between it and the next round there are
only lines of a shop. -/
theorem mem_cons_iff_of_round {positions : List Nat} {stop : Nat}
    (hc : p.interpreter.current? = some c) (he : p.effectOf c = .ok e)
    (hline : ¬ IsLine p.interpreter.commands p.interpreter.position)
    (hle : (p.after c e).interpreter.position ≤ stop)
    (hmem : ∀ k, k ∈ positions ↔ (p.after c e).interpreter.position ≤ k ∧ k < stop ∧
      ¬ IsLine p.interpreter.commands k) (k : Nat) :
    k ∈ p.interpreter.position :: positions ↔ p.interpreter.position ≤ k ∧ k < stop ∧
      ¬ IsLine p.interpreter.commands k := by
  have hlt : p.interpreter.position < (p.after c e).interpreter.position := by
    rw [position_after]
    omega
  rw [List.mem_cons, hmem]
  constructor
  · rintro (rfl | ⟨hk, hrest⟩)
    · exact ⟨Nat.le_refl _, by omega, hline⟩
    · exact ⟨by omega, hrest⟩
  · rintro ⟨hk, hstop, hkline⟩
    by_cases hnext : (p.after c e).interpreter.position ≤ k
    · exact .inr ⟨hnext, hstop, hkline⟩
    · refine .inl (Nat.le_antisymm (Nat.not_lt.1 fun hafter => ?_) hk)
      exact hkline ((isLine_round hc he hline).1 k hafter (Nat.not_le.1 hnext))

theorem Passes.step {positions : List Nat} {shops : List Shop} (hp : p.Listable)
    (hc : p.interpreter.current? = some c) (he : p.effectOf c = .ok e)
    (hline : ¬ IsLine p.interpreter.commands p.interpreter.position)
    (hle : (p.after c e).interpreter.position ≤ q.interpreter.position)
    (h : Passes positions shops (p.after c e) q) :
    ∃ shops, Passes (p.interpreter.position :: positions) shops p q := by
  obtain ⟨hvisits, hascending, hmem, hreadable, hgame, lists, hlists, hshops⟩ := h
  obtain ⟨first, hfirst, hquiet, hopen⟩ := game_after he
  have hbattle : (p.after c e).game.party.inBattle = p.game.party.inBattle := by rw [hfirst]
  rw [commands_after] at hmem hreadable hlists
  rw [settings_after] at hreadable
  rw [hbattle] at hshops
  refine ⟨first ++ shops, .step hc ?_ hvisits, List.pairwise_cons.2 ⟨fun k hk => ?_, hascending⟩,
    mem_cons_iff_of_round hc he hline hle hmem, ?_, ?_, ?_⟩
  · rw [perform_execute hp, he]
    rfl
  · have hnext := ((hmem k).1 hk).1
    rw [position_after] at hnext
    omega
  · exact List.forall_mem_cons.2 ⟨(exists_effectOf_iff hc).1 ⟨e, he⟩, hreadable⟩
  · rw [hgame, hfirst, Stage.openedAll, Stage.openedAll, Stage.openedAll, List.foldl_append]
  · -- only a shop adds a block, and it opens with that block's goods unless there is a battle
    by_cases hs : c.code = Command.shopCode
    · obtain ⟨goods, hgoods, hopened⟩ := hopen hs
      refine ⟨goods :: lists, ?_, ?_⟩
      · rw [List.filter_cons_of_pos (by simp [codeAt?_current hc, hs]), List.mapM_cons,
          goodsAt_current hc, hgoods, ok_bind, hlists]
        rfl
      · rw [List.map_append, hopened, hshops]
        split <;> rfl
    · refine ⟨lists, ?_, ?_⟩
      · rw [List.filter_cons_of_neg (by simp [codeAt?_current hc, hs]), hlists]
      · rw [hquiet hs, List.nil_append, hshops]

/-- The induction of this module: rounds from a position that has a turn pass positions. -/
theorem Rounds.passes {n : Nat} (h : Rounds n p q) (hp : p.Listable)
    (hline : ¬ IsLine p.interpreter.commands p.interpreter.position) :
    ∃ positions shops, Passes positions shops p q := by
  induction h with
  | refl p => exact ⟨[], [], .refl p⟩
  | @step n p q c e hc he hrest ih =>
    have hnext : ¬ IsLine (p.after c e).interpreter.commands
        (p.after c e).interpreter.position := by
      rw [commands_after]
      exact (isLine_round hc he hline).2
    have hle := hrest.position_le
    obtain ⟨positions, shops, hpasses⟩ := ih (hp.after he) hnext
    obtain ⟨shops, hpasses⟩ := hpasses.step hp hc he hline (by omega)
    exact ⟨_, shops, hpasses⟩

/-- An event that runs to its end passes the positions that have a turn. -/
theorem exists_passes_of_runEvent {start final : Play} {commands : List Command} {eventId : Value}
    (h : (runEvent commands eventId).perform start = (.ok (), final)) :
    final.interpreter.current? = none ∧
      ∃ shops, Passes (turns commands) shops (start.started commands eventId) final := by
  obtain ⟨n, hrounds, hend⟩ := exists_rounds_of_runEvent h
  obtain ⟨positions, shops, hpasses⟩ :=
    hrounds.passes (listable_started commands eventId start) Command.not_isLine_zero
  refine ⟨hend, shops, ?_⟩
  have hlength : commands.length ≤ final.interpreter.position := by
    rw [Interpreter.current?, hrounds.commands] at hend
    exact List.getElem?_eq_none_iff.1 hend
  have hturns : positions = turns commands := by
    refine hpasses.ascending.eq_of_mem_iff (List.pairwise_lt_range.filter _) fun k => ?_
    refine Iff.trans ⟨fun hk => ?_, fun hk => ?_⟩ Command.mem_turns.symm
    · obtain ⟨c, hc, -⟩ := hpasses.readable k hk
      exact ⟨(List.getElem?_eq_some_iff.1 hc).1, ((hpasses.mem_iff k).1 hk).2.2⟩
    · exact (hpasses.mem_iff k).2 ⟨Nat.zero_le k, by omega, hk.2⟩
  rwa [hturns] at hpasses

/-- An event runs to its end exactly if no command fails when its turn comes. -/
theorem exists_runEvent_iff (start : Play) (commands : List Command) (eventId : Value) :
    (∃ final, (runEvent commands eventId).perform start = (.ok (), final)) ↔
      ∀ k < commands.length, Readable start.interpreter.settings commands k := by
  constructor
  · rintro ⟨final, h⟩ k hk
    obtain ⟨-, shops, hpasses⟩ := exists_passes_of_runEvent h
    by_cases hline : IsLine commands k
    · exact Command.readable_of_isLine hk hline
    · exact hpasses.readable k (Command.mem_turns.2 ⟨hk, hline⟩)
  · intro hreadable
    cases h : (runEvent commands eventId).perform start with
    | mk answer final =>
      cases answer with
      | ok => exact ⟨final, rfl⟩
      | error f =>
        rw [perform_runEvent] at h
        obtain ⟨n, reached, c, hrounds, hc, he, -⟩ :=
          perform_runFor_error (listable_started commands eventId start) h
        have hlt := (List.getElem?_eq_some_iff.1 hc).1
        rw [hrounds.commands] at hlt
        have hfound := hreadable _ hlt
        have hiff := exists_effectOf_iff hc
        rw [hrounds.settings, hrounds.commands] at hiff
        obtain ⟨e, hok⟩ := hiff.2 hfound
        rw [he] at hok
        cases hok

/-- **A run splits the commands into shop blocks without loss or duplication.** An event runs to its
end exactly if every shop has a block of goods that can be read and every plugin command a
declaration. It then carries out the commands that are not lines of a shop, each once and in order,
every plugin command among them. For each shop command it adds one scene, in order, whose goods are
those of the block there: the command and the lines of goods directly after it; other lines of goods
come into no scene. In battle it carries out the same commands, and the game stays as it was. -/
theorem run_splits_commands_into_blocks (start : Play) (commands : List Command)
    (eventId : Value) :
    ((∃ final, (runEvent commands eventId).perform start = (.ok (), final)) ↔
      ∀ k < commands.length, Readable start.interpreter.settings commands k) ∧
    ((turns commands).Pairwise (· < ·) ∧ ∀ (k : Nat) (c : Command), commands[k]? = some c →
      c.code ≠ Command.goodsCode → k ∈ turns commands) ∧
    ∀ final, (runEvent commands eventId).perform start = (.ok (), final) →
      Visits (turns commands) (start.started commands eventId) final ∧
      final.interpreter.current? = none ∧
      ∃ lists, (shopPositions commands).mapM (goodsAt commands) = .ok lists ∧
        (start.game.party.inBattle.truthy = false → ∃ shops : List Shop,
          shops.map (·.goods) = lists ∧
          final.game.stage.scenes = start.game.stage.scenes ++ shops.map Shop.scene ∧
          final.game.stage.stack =
            (List.range' start.game.stage.scenes.length shops.length).reverse ++
              start.game.stage.stack) ∧
        (start.game.party.inBattle.truthy = true → final.game = start.game) := by
  refine ⟨exists_runEvent_iff start commands eventId,
    ⟨List.pairwise_lt_range.filter _, fun k c hc hcode => ?_⟩, fun final h => ?_⟩
  · refine Command.mem_turns.2 ⟨(List.getElem?_eq_some_iff.1 hc).1, fun hline => hcode ?_⟩
    have hgoods := Command.codeAt?_of_isLine hline
    rwa [codeAt?, hc, Option.map_some, Option.some.injEq] at hgoods
  · obtain ⟨hend, shops, hpasses⟩ := exists_passes_of_runEvent h
    obtain ⟨lists, hlists, hshops⟩ := hpasses.goods
    have hgame : final.game =
      { start.game with stage := start.game.stage.openedAll shops } := hpasses.game
    have hpositions : (turns commands).filter (fun k => codeAt?
        (start.started commands eventId).interpreter.commands k = some Command.shopCode) =
      shopPositions commands := Command.filter_turns
    rw [hpositions] at hlists
    refine ⟨hpasses.visits, hend, lists, hlists, fun hpeace => ?_, fun hbattle => ?_⟩
    · have hpeace' : (start.started commands eventId).game.party.inBattle.truthy = false := hpeace
      rw [hpeace'] at hshops
      rw [hgame]
      exact ⟨shops, hshops, Stage.scenes_openedAll shops _, Stage.stack_openedAll shops _⟩
    · have hbattle' : (start.started commands eventId).game.party.inBattle.truthy = true := hbattle
      rw [hbattle', if_pos rfl, List.map_eq_nil_iff] at hshops
      rw [hgame, hshops]
      rfl

/-- A stray line of goods, a shop with two more lines, and another shop directly after them. -/
def adjacentShops : List Command := [
  { code := Command.goodsCode, parameters := [.int 0, .int 9, .int 0, .int 0] },
  { code := Command.shopCode, parameters := [.int 0, .int 1, .int 0, .int 0] },
  { code := Command.goodsCode, parameters := [.int 1, .int 2, .int 0, .int 0] },
  { code := Command.goodsCode, parameters := [.int 2, .int 3, .int 0, .int 0] },
  { code := Command.shopCode, parameters := [.int 0, .int 4, .int 1, .int 5] }]

/-- Each of the adjacent shops has its own lines, and the stray line is in none. -/
theorem adjacent_shops_have_their_own_lines :
    ∃ final first second, (runEvent adjacentShops (.int 1)).perform ⟨{}, {}⟩ = (.ok (), final) ∧
      final.game.stage.scenes = [Shop.scene first, Shop.scene second] ∧
      first.goods = [⟨.item, 1, none⟩, ⟨.weapon, 2, none⟩, ⟨.armor, 3, none⟩] ∧
      second.goods = [⟨.item, 4, some 5⟩] := by
  obtain ⟨final, hrun⟩ : ∃ final,
      (runEvent adjacentShops (.int 1)).perform ⟨{}, {}⟩ = (.ok (), final) := ⟨_, rfl⟩
  obtain ⟨-, -, hfinal⟩ := run_splits_commands_into_blocks ⟨{}, {}⟩ adjacentShops (.int 1)
  obtain ⟨-, -, lists, hlists, hpeace, -⟩ := hfinal final hrun
  have hgoods : (shopPositions adjacentShops).mapM (goodsAt adjacentShops) =
      .ok [[⟨.item, 1, none⟩, ⟨.weapon, 2, none⟩, ⟨.armor, 3, none⟩], [⟨.item, 4, some 5⟩]] := by
    decide +kernel
  cases hgoods.symm.trans hlists
  obtain ⟨shops, hshops, hscenes, -⟩ := hpeace rfl
  obtain ⟨first, rest, rfl, hfirst, hrest⟩ := List.map_eq_cons_iff.1 hshops
  obtain ⟨second, none, rfl, hsecond, hnone⟩ := List.map_eq_cons_iff.1 hrest
  obtain rfl := List.map_eq_nil_iff.1 hnone
  exact ⟨final, first, second, hrun, hscenes, hfirst, hsecond⟩

end Play
end SellRules
