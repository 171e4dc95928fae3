import SellRules.Proofs.Event.Effect

/-!
# Rounds of a run

A run carries out the current command and moves on, round after round. `Play.Rounds n p q` says that
`n` rounds lead from `p` to `q` without a failure; `Play.perform_runFor_ok` and
`Play.perform_runFor_error` take every run apart into such rounds, the last of which ends the
commands or fails. All laws about runs are inductions over rounds.
-/

set_option autoImplicit false

namespace SellRules.Play

/-- The play after a round that carried out `c`. -/
def after (c : Command) (e : Effect) (p : Play) : Play :=
  (e.apply (p.moved (c.linesTaken p.interpreter.goodsAhead))).moved 1

/-- `n` rounds without a failure. -/
inductive Rounds : Nat → Play → Play → Prop
  | refl (p : Play) : Rounds 0 p p
  | step {n : Nat} {p q : Play} {c : Command} {e : Effect}
      (current : p.interpreter.current? = some c) (effect : p.effectOf c = .ok e)
      (rest : Rounds n (p.after c e) q) : Rounds (n + 1) p q

theorem Listable.after {p : Play} (hp : p.Listable) {c : Command} {e : Effect}
    (he : p.effectOf c = .ok e) : (p.after c e).Listable :=
  Listable.apply he hp

theorem Rounds.listable {n : Nat} {p q : Play} (h : Rounds n p q) (hp : p.Listable) :
    q.Listable := by
  induction h with
  | refl p => exact hp
  | step _ he _ ih => exact ih (hp.after he)

/-! ## Runs as rounds -/

theorem perform_runFor_done {p : Play} (h : p.interpreter.current? = none) (limit : Nat) :
    (runFor limit).perform p = (.ok (), p) := by
  cases limit with
  | zero => rfl
  | succ limit =>
    simp only [runFor, Action.perform_bind, Action.perform_get, h, Action.perform_pure]

theorem perform_runFor_succ {p : Play} (hp : p.Listable) {c : Command}
    (hc : p.interpreter.current? = some c) (limit : Nat) :
    (runFor (limit + 1)).perform p =
      match p.effectOf c with
      | .ok e => (runFor limit).perform (p.after c e)
      | .error f => (.error f, p.moved (c.linesTaken p.interpreter.goodsAhead)) := by
  simp only [runFor, Action.perform_bind, Action.perform_get, hc, perform_execute hp]
  cases p.effectOf c <;> rfl

/-- A run that does not fail consists of rounds. It stops at its limit or at the end of the
commands. -/
theorem perform_runFor_ok {limit : Nat} {p q : Play} (hp : p.Listable)
    (h : (runFor limit).perform p = (.ok (), q)) :
    ∃ n, Rounds n p q ∧ (n = limit ∨ q.interpreter.current? = none) := by
  induction limit generalizing p with
  | zero =>
    cases h
    exact ⟨0, .refl _, .inl rfl⟩
  | succ limit ih =>
    cases hc : p.interpreter.current? with
    | none =>
      rw [perform_runFor_done hc] at h
      cases h
      exact ⟨0, .refl _, .inr hc⟩
    | some c =>
      rw [perform_runFor_succ hp hc] at h
      cases he : p.effectOf c with
      | error f =>
        rw [he] at h
        cases h
      | ok e =>
        rw [he] at h
        obtain ⟨n, hn, hend⟩ := ih (hp.after he) h
        exact ⟨n + 1, .step hc he hn, hend.imp_left (congrArg (· + 1))⟩

/-- A run that fails consists of rounds and of a command that fails. -/
theorem perform_runFor_error {limit : Nat} {p q : Play} {f : Failure} (hp : p.Listable)
    (h : (runFor limit).perform p = (.error f, q)) :
    ∃ n m c, Rounds n p m ∧ m.interpreter.current? = some c ∧ m.effectOf c = .error f ∧
      q = m.moved (c.linesTaken m.interpreter.goodsAhead) := by
  induction limit generalizing p with
  | zero => cases h
  | succ limit ih =>
    cases hc : p.interpreter.current? with
    | none =>
      rw [perform_runFor_done hc] at h
      cases h
    | some c =>
      rw [perform_runFor_succ hp hc] at h
      cases he : p.effectOf c with
      | error g =>
        rw [he] at h
        cases h
        exact ⟨0, p, c, .refl p, hc, he, rfl⟩
      | ok e =>
        rw [he] at h
        obtain ⟨n, m, d, hn, hrest⟩ := ih (hp.after he) h
        exact ⟨n + 1, m, d, .step hc he hn, hrest⟩

/-- Rounds are the beginning of every run that is long enough. -/
theorem Rounds.perform_runFor {n : Nat} {p q : Play} (h : Rounds n p q) (hp : p.Listable)
    (limit : Nat) : (runFor (n + limit)).perform p = (runFor limit).perform q := by
  induction h with
  | refl p => rw [Nat.zero_add]
  | @step n p q c e hc he _ ih =>
    rw [Nat.add_right_comm, perform_runFor_succ hp hc, he]
    exact ih (hp.after he)

/-! ## Positions -/

theorem position_after (c : Command) (e : Effect) (p : Play) :
    (p.after c e).interpreter.position =
      p.interpreter.position + c.linesTaken p.interpreter.goodsAhead + 1 := by
  simp only [after, moved, position_apply]

theorem Rounds.position_le {n : Nat} {p q : Play} (h : Rounds n p q) :
    p.interpreter.position + n ≤ q.interpreter.position := by
  induction h with
  | refl p => simp
  | @step n p q c e _ _ _ ih =>
    rw [position_after] at ih
    omega

@[simp] theorem commands_after (c : Command) (e : Effect) (p : Play) :
    (p.after c e).interpreter.commands = p.interpreter.commands := by
  simp only [after, moved, commands_apply]

theorem Rounds.commands {n : Nat} {p q : Play} (h : Rounds n p q) :
    q.interpreter.commands = p.interpreter.commands := by
  induction h with
  | refl p => rfl
  | step _ _ _ ih => rw [ih, commands_after]

/-- A run of all that is left ends at the end of the commands. -/
theorem exists_rounds_of_runFor {p q : Play} (hp : p.Listable)
    (h : (runFor (p.interpreter.commands.length - p.interpreter.position)).perform p = (.ok (), q)) :
    ∃ n, Rounds n p q ∧ q.interpreter.current? = none := by
  obtain ⟨n, hrounds, hstop⟩ := perform_runFor_ok hp h
  refine ⟨n, hrounds, ?_⟩
  rcases hstop with rfl | hend
  · have hposition := hrounds.position_le
    have hcommands := hrounds.commands
    exact List.getElem?_eq_none (by rw [hcommands]; omega)
  · exact hend

@[simp] theorem settings_after (c : Command) (e : Effect) (p : Play) :
    (p.after c e).interpreter.settings = p.interpreter.settings := by
  simp only [after, moved, settings_apply]

theorem Rounds.settings {n : Nat} {p q : Play} (h : Rounds n p q) :
    q.interpreter.settings = p.interpreter.settings := by
  induction h with
  | refl p => rfl
  | step _ _ _ ih => rw [ih, settings_after]

/-! ## Lines of goods -/

theorem code_of_mem_goodsAhead {i : Interpreter} {line : Command} (h : line ∈ i.goodsAhead) :
    line.code = Command.goodsCode :=
  of_decide_eq_true (List.all_eq_true.1 List.all_takeWhile line h)

/-- What follows a command: the lines of goods, then what follows them. -/
theorem drop_eq_goodsAhead (i : Interpreter) :
    i.commands.drop (i.position + 1) =
      i.goodsAhead ++ i.commands.drop (i.position + i.goodsAhead.length + 1) := by
  have h := List.prefix_iff_eq_append.1
    (List.takeWhile_prefix (fun c : Command => decide (c.code = Command.goodsCode))
      (l := i.commands.drop (i.position + 1)))
  rw [List.drop_drop, Nat.add_right_comm] at h
  exact h.symm

theorem taken_eq_length {lines : List Command} {goods : List Good}
    (h : lines.mapM Command.good = .ok goods) : Command.taken lines = lines.length := by
  induction lines generalizing goods with
  | nil => rfl
  | cons line rest ih =>
    rw [List.mapM_cons] at h
    obtain ⟨good, hgood, h⟩ := bind_eq_ok.1 h
    obtain ⟨more, hmore, -⟩ := bind_eq_ok.1 h
    simp [Command.taken, hgood, Except.isOk, Except.toBool, ih hmore]

/-- A shop command that does not fail takes all lines ahead of it, other commands take none. -/
theorem linesTaken_of_effect {p : Play} {c : Command} {e : Effect} (h : p.effectOf c = .ok e) :
    c.linesTaken p.interpreter.goodsAhead =
      if c.code = Command.shopCode then p.interpreter.goodsAhead.length else 0 := by
  by_cases hs : c.code = Command.shopCode
  · rw [effectOf, Command.effect, if_pos hs] at h
    obtain ⟨goods, hgoods, -⟩ := bind_eq_ok.1 h
    obtain ⟨first, hfirst, hgoods⟩ := bind_eq_ok.1 hgoods
    obtain ⟨more, hmore, -⟩ := bind_eq_ok.1 hgoods
    simp [Command.linesTaken, hs, hfirst, Except.isOk, Except.toBool, taken_eq_length hmore]
  · simp [Command.linesTaken, hs]

/-! ## What is left of a run -/

/-- The commands that are not done. -/
def remaining (p : Play) : List Command := p.interpreter.commands.drop p.interpreter.position

theorem remaining_of_current_none {p : Play} (h : p.interpreter.current? = none) :
    p.remaining = [] :=
  List.drop_eq_nil_of_le (List.getElem?_eq_none_iff.1 h)

/-- A round does its command and the lines of goods that it takes. -/
theorem remaining_eq_of_round {p : Play} {c : Command} {e : Effect}
    (hc : p.interpreter.current? = some c) (he : p.effectOf c = .ok e) :
    ∃ lines, (∀ line ∈ lines, line.code = Command.goodsCode) ∧
      p.remaining = c :: (lines ++ (p.after c e).remaining) := by
  obtain ⟨hlt, hget⟩ := List.getElem?_eq_some_iff.1 hc
  have hdrop : p.remaining = c :: p.interpreter.commands.drop (p.interpreter.position + 1) := by
    rw [remaining, List.drop_eq_getElem_cons hlt, hget]
  have hrest : (p.after c e).remaining = p.interpreter.commands.drop
      (p.interpreter.position + c.linesTaken p.interpreter.goodsAhead + 1) := by
    rw [remaining, commands_after, position_after]
  rw [linesTaken_of_effect he] at hrest
  by_cases hs : c.code = Command.shopCode
  · rw [if_pos hs] at hrest
    exact ⟨p.interpreter.goodsAhead, fun line => code_of_mem_goodsAhead,
      by rw [hdrop, hrest, drop_eq_goodsAhead]⟩
  · rw [if_neg hs] at hrest
    exact ⟨[], by simp, by rw [hdrop, hrest]; rfl⟩

end SellRules.Play
