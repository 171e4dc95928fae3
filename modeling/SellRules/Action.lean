import SellRules.Failure

/-!
# Actions

An action changes a state and gives an answer or fails. What it changed before it failed stays
changed.
-/

set_option autoImplicit false

namespace SellRules

abbrev Action (σ : Type) := ExceptT Failure (StateM σ)

namespace Action

variable {σ τ α β : Type}

/-- The answer of an action and the state that it leaves. -/
def perform (a : Action σ α) (s : σ) : Except Failure α × σ := StateT.run (ExceptT.run a) s

/-- The action that answers without changing anything, or fails. -/
def ofExcept (r : Except Failure α) : Action σ α := ExceptT.mk (pure r)

/-- An action on a part of a state. -/
def within (get : σ → τ) (set : τ → σ → σ) (a : Action τ α) : Action σ α :=
  ExceptT.mk fun s => ((a.perform (get s)).1, set (a.perform (get s)).2 s)

@[simp] theorem perform_pure (x : α) (s : σ) : (pure x : Action σ α).perform s = (.ok x, s) := rfl

@[simp] theorem perform_throw (f : Failure) (s : σ) :
    (throw f : Action σ α).perform s = (.error f, s) := rfl

@[simp] theorem perform_get (s : σ) : (get : Action σ σ).perform s = (.ok s, s) := rfl

@[simp] theorem perform_set (s t : σ) : (set t : Action σ PUnit).perform s = (.ok ⟨⟩, t) := rfl

@[simp] theorem perform_modify (f : σ → σ) (s : σ) :
    (modify f : Action σ PUnit).perform s = (.ok ⟨⟩, f s) := rfl

@[simp] theorem perform_ofExcept (r : Except Failure α) (s : σ) :
    (ofExcept r : Action σ α).perform s = (r, s) := rfl

@[simp] theorem perform_within (get : σ → τ) (set : τ → σ → σ) (a : Action τ α) (s : σ) :
    (within get set a).perform s = ((a.perform (get s)).1, set (a.perform (get s)).2 s) := rfl

theorem perform_bind (a : Action σ α) (k : α → Action σ β) (s : σ) :
    (a >>= k).perform s =
      match a.perform s with
      | (.ok x, t) => (k x).perform t
      | (.error f, t) => (.error f, t) := by
  show StateT.run (ExceptT.run (a >>= k)) s = _
  simp only [perform, ExceptT.run_bind, StateT.run_bind]
  cases h : StateT.run (ExceptT.run a) s with
  | mk r t => cases r <;> rfl

end Action
end SellRules
