import SellRules.Action

/-!
# Outcomes

Taking a computation that succeeded apart into its steps: a bind, a map, a check, and a map over a
list. Conversions between a step and its outcome are stated once here and used by every module on
readers and actions. So is the step from a list of calls, acts or deeds to one with another at its
end.
-/

set_option autoImplicit false

namespace SellRules

variable {α β ε : Type}

instance decidableEqExcept [DecidableEq ε] [DecidableEq α] : DecidableEq (Except ε α)
  | .ok a, .ok b => decidable_of_iff (a = b) ⟨congrArg _, Except.ok.inj⟩
  | .error e, .error f => decidable_of_iff (e = f) ⟨congrArg _, Except.error.inj⟩
  | .ok _, .error _ => .isFalse nofun
  | .error _, .ok _ => .isFalse nofun

theorem ok_bind (a : α) (f : α → Except ε β) : (.ok a >>= f) = f a := rfl

theorem bind_eq_ok {x : Except ε α} {f : α → Except ε β} {b : β} :
    x >>= f = .ok b ↔ ∃ a, x = .ok a ∧ f a = .ok b := by
  cases x with
  | error e => simp [bind, Except.bind]
  | ok a => simp [bind, Except.bind]

theorem map_eq_ok {x : Except ε α} {f : α → β} {b : β} :
    f <$> x = .ok b ↔ ∃ a, x = .ok a ∧ f a = b := by
  cases x with
  | error e => simp [Functor.map, Except.map]
  | ok a => simp [Functor.map, Except.map]

theorem mapError_eq_ok {δ : Type} {x : Except ε α} {f : ε → δ} {a : α} :
    x.mapError f = .ok a ↔ x = .ok a := by
  cases x with
  | error e => exact ⟨nofun, nofun⟩
  | ok b =>
    constructor <;> intro h <;> cases h <;> rfl

/-- The answers along a list are the answers for its elements. -/
theorem mem_of_mapM_eq_ok {f : α → Except ε β} {l : List α} {bs : List β}
    (h : l.mapM f = .ok bs) {b : β} : b ∈ bs ↔ ∃ a ∈ l, f a = .ok b := by
  induction l generalizing bs with
  | nil =>
    cases h
    simp
  | cons a l ih =>
    simp only [List.mapM_cons] at h
    obtain ⟨first, hfirst, h⟩ := bind_eq_ok.1 h
    obtain ⟨rest, hrest, h⟩ := bind_eq_ok.1 h
    cases h
    simp only [List.mem_cons, ih hrest, exists_eq_or_imp, hfirst, Except.ok.injEq,
      eq_comm (a := b)]

/-- A function that answers along a list answers for each of its elements. -/
theorem exists_of_mapM_eq_ok {f : α → Except ε β} {l : List α} {bs : List β}
    (h : l.mapM f = .ok bs) : ∀ a ∈ l, ∃ b, f a = .ok b := by
  induction l generalizing bs with
  | nil => simp
  | cons a l ih =>
    simp only [List.mapM_cons] at h
    obtain ⟨first, hfirst, h⟩ := bind_eq_ok.1 h
    obtain ⟨rest, hrest, -⟩ := bind_eq_ok.1 h
    exact List.forall_mem_cons.2 ⟨⟨first, hfirst⟩, ih hrest⟩

/-- The answer at a place of a list is the answer for the element there. -/
theorem getElem?_of_mapM_eq_ok {f : α → Except ε β} {l : List α} {bs : List β}
    (h : l.mapM f = .ok bs) {k : Nat} {b : β} (hb : bs[k]? = some b) :
    ∃ a, l[k]? = some a ∧ f a = .ok b := by
  induction l generalizing bs k with
  | nil =>
    cases h
    simp at hb
  | cons a l ih =>
    simp only [List.mapM_cons] at h
    obtain ⟨first, hfirst, h⟩ := bind_eq_ok.1 h
    obtain ⟨rest, hrest, h⟩ := bind_eq_ok.1 h
    cases h
    cases k with
    | zero =>
      cases hb
      exact ⟨a, rfl, hfirst⟩
    | succ k => exact ih hrest hb

/-- What holds of every answer of a function holds of its answers along a list. -/
theorem forall_of_mapM_eq_ok {f : α → Except ε β} {P : β → Prop} {l : List α} {bs : List β}
    (hf : ∀ a b, f a = .ok b → P b) (h : l.mapM f = .ok bs) : ∀ b ∈ bs, P b := by
  intro b hb
  obtain ⟨a, -, hab⟩ := (mem_of_mapM_eq_ok h).1 hb
  exact hf a b hab

/-- A function that succeeds on every element of a list maps it. -/
theorem mapM_eq_ok_map {f : α → Except ε β} {g : α → β} {l : List α}
    (h : ∀ a ∈ l, f a = .ok (g a)) : l.mapM f = .ok (l.map g) := by
  induction l with
  | nil => rfl
  | cons a l ih =>
    rw [List.mapM_cons, h a (by simp), ih fun x hx => h x (by simp [hx])]
    rfl

/-- Answers along the elements that pass a test are the answers that pass the same test. -/
theorem mapM_filter {f : α → Except ε β} {p : α → Bool} {q : β → Bool} {l : List α} {bs : List β}
    (h : l.mapM f = .ok bs) (hpq : ∀ a b, f a = .ok b → p a = q b) :
    (l.filter p).mapM f = .ok (bs.filter q) := by
  induction l generalizing bs with
  | nil =>
    cases h
    rfl
  | cons a l ih =>
    rw [List.mapM_cons] at h
    obtain ⟨first, hfirst, h⟩ := bind_eq_ok.1 h
    obtain ⟨rest, hrest, h⟩ := bind_eq_ok.1 h
    cases h
    rw [List.filter_cons, List.filter_cons, hpq a first hfirst]
    split
    · rw [List.mapM_cons, hfirst, ok_bind, ih hrest]
      rfl
    · exact ih hrest

/-- A test that has an answer for every element of a list filters it. -/
theorem filterM_eq_ok_filter {f : α → Except ε Bool} {g : α → Bool} {l : List α}
    (h : ∀ a ∈ l, f a = .ok (g a)) : l.filterM f = .ok (l.filter g) := by
  have haux : ∀ passed : List α,
      l.filterAuxM f passed = .ok ((l.filter g).reverse ++ passed) := by
    induction l with
    | nil => exact fun _ => rfl
    | cons a l ih =>
      intro passed
      obtain ⟨ha, hl⟩ := List.forall_mem_cons.1 h
      rw [List.filterAuxM, ha, ok_bind, ih hl]
      cases hg : g a <;> simp [hg]
  rw [List.filterM, haux, ok_bind, List.append_nil, List.reverse_reverse]
  rfl

/-- A function that succeeds on every element of a list answers along it, and with nothing else. -/
theorem exists_mapM_eq_ok {f : α → Except ε β} {l : List α} (h : ∀ a ∈ l, ∃ b, f a = .ok b) :
    ∃ bs, l.mapM f = .ok bs ∧ ∀ b, b ∈ bs ↔ ∃ a ∈ l, f a = .ok b := by
  have hexists : ∃ bs, l.mapM f = .ok bs := by
    induction l with
    | nil => exact ⟨[], rfl⟩
    | cons a l ih =>
      obtain ⟨b, hb⟩ := h a (by simp)
      obtain ⟨bs, hbs⟩ := ih fun x hx => h x (by simp [hx])
      refine ⟨b :: bs, ?_⟩
      rw [List.mapM_cons, hb, hbs]
      rfl
  obtain ⟨bs, hbs⟩ := hexists
  exact ⟨bs, hbs, fun b => mem_of_mapM_eq_ok hbs⟩

/-- A function fails along a list as it fails for the first element for which it does. -/
theorem mapM_eq_error_iff {f : α → Except ε β} {l : List α} {e : ε} :
    l.mapM f = .error e ↔ ∃ before a after, l = before ++ a :: after ∧
      (∀ x ∈ before, ∃ b, f x = .ok b) ∧ f a = .error e := by
  constructor
  · intro h
    induction l with
    | nil => cases h
    | cons a l ih =>
      rw [List.mapM_cons] at h
      cases hfirst : f a with
      | error first =>
        rw [hfirst] at h
        cases h
        exact ⟨[], a, l, rfl, List.forall_mem_nil _, hfirst⟩
      | ok b =>
        rw [hfirst, ok_bind] at h
        cases hrest : l.mapM f with
        | error rest =>
          rw [hrest] at h
          cases h
          obtain ⟨before, x, after, rfl, hbefore, hfail⟩ := ih hrest
          exact ⟨a :: before, x, after, rfl, List.forall_mem_cons.2 ⟨⟨b, hfirst⟩, hbefore⟩, hfail⟩
        | ok bs =>
          rw [hrest] at h
          cases h
  · rintro ⟨before, a, after, rfl, hbefore, hfail⟩
    induction before with
    | nil =>
      rw [List.nil_append, List.mapM_cons, hfail]
      rfl
    | cons x before ih =>
      obtain ⟨⟨b, hb⟩, hrest⟩ := List.forall_mem_cons.1 hbefore
      rw [List.cons_append, List.mapM_cons, hb, ok_bind, ih hrest]
      rfl

/-- A list along which a function fails has an element for which it fails so. -/
theorem exists_of_mapM_eq_error {f : α → Except ε β} {l : List α} {e : ε}
    (h : l.mapM f = .error e) : ∃ a ∈ l, f a = .error e := by
  obtain ⟨before, a, after, rfl, -, hfail⟩ := mapM_eq_error_iff.1 h
  exact ⟨a, by simp, hfail⟩

/-! ## A list that went on by one element -/

/-- In a list that went on by one element, any element is that one or stood in the list before. -/
theorem concat_eq_append_cons {l before after : List α} {a x : α}
    (heq : l ++ [a] = before ++ x :: after) :
    (l = before ∧ a = x ∧ after = []) ∨
      ∃ shorter, l = before ++ x :: shorter ∧ after = shorter ++ [a] := by
  rcases List.eq_nil_or_concat after with rfl | ⟨shorter, last, rfl⟩
  · obtain ⟨hl, ha⟩ := List.append_inj' heq rfl
    exact .inl ⟨hl, List.singleton_inj.1 ha, rfl⟩
  · rw [List.concat_eq_append] at heq ⊢
    rw [← List.cons_append, ← List.append_assoc] at heq
    obtain ⟨hl, ha⟩ := List.append_inj' heq rfl
    exact .inr ⟨shorter, hl, by rw [ha]⟩

/-! ## What an action keeps -/

namespace Action

variable {σ τ : Type}

/-- An action keeps a property of the state, also when it fails. -/
def Keeps (P : σ → Prop) (a : Action σ α) : Prop := ∀ s, P s → P (a.perform s).2

variable {P : σ → Prop}

theorem keeps_pure (x : α) : Keeps P (pure x) := fun _ h => h

theorem keeps_ofExcept (r : Except Failure α) : Keeps P (ofExcept r) := fun _ h => h

theorem keeps_get : Keeps P (get : Action σ σ) := fun _ h => h

theorem Keeps.bind {a : Action σ α} {k : α → Action σ β} (ha : Keeps P a)
    (hk : ∀ x, Keeps P (k x)) : Keeps P (a >>= k) := by
  intro s h
  have hnext := ha s h
  rw [perform_bind]
  cases hr : a.perform s with
  | mk r t =>
    rw [hr] at hnext
    cases r with
    | error f => exact hnext
    | ok x => exact hk x t hnext

/-- What is done with an answer keeps what it keeps for the answers that there are. -/
theorem keeps_ofExcept_bind {r : Except Failure α} {k : α → Action σ β}
    (hk : ∀ x, r = .ok x → Keeps P (k x)) : Keeps P (ofExcept r >>= k) := by
  intro s h
  rw [perform_bind, perform_ofExcept]
  cases r with
  | error f => exact h
  | ok x => exact hk x rfl s h

end Action

/-- A failure whose values can all be shown is what it is. -/
theorem Failure.showing_of_isShown {shown : List Value} (h : shown.all Value.isShown = true)
    (failure : Failure) : Failure.showing shown failure = failure := by
  have hnone : shown.findSome? Value.obstacle? = none := by
    rw [List.findSome?_eq_none_iff]
    exact fun v hv => Option.isNone_iff_eq_none.1 (List.all_eq_true.1 h v hv)
  rw [Failure.showing, hnone]

/-- A fault of a value stays one, whether or not the values of its message can be shown. -/
theorem Failure.exists_showing_value (shown : List Value) (fault : ValueFault) :
    ∃ reported, Failure.showing shown (.value fault) = .value reported := by
  unfold Failure.showing
  split
  · exact ⟨_, rfl⟩
  · exact ⟨_, rfl⟩

end SellRules
