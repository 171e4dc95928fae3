import Mathlib.Data.List.Induction
import Mathlib.Data.List.Infix
import SellRules.Event.Interpreter
import SellRules.Proofs.Restriction.Typed

/-!
# What waits in a registry after any calls

A registry is declared to, taken from and reset, and some declarations fail: those of nothing, and
those of restrictions that cannot be listed. `Registry.Waits` reads what ought to wait off the calls
alone: the restrictions of the last declaration that did not fail. A declaration is in place before
it is reported, though, so one that fails drives out what waited (`Registry.pending_declare`).
As long as the failing ones keep what waits, the registry holds what ought to wait
(`Registry.pending_eq_iff_waits`); they keep it only where nothing is given while nothing waits.
-/

set_option autoImplicit false

namespace SellRules.Registry

inductive Call where
  | declare (given : Option RestrictionSet)
  | consume
  | reset

/-- Carries a call out. Only taking out answers with restrictions. -/
def Call.act : Call → Action Registry (Option RestrictionSet)
  | .declare given => do
    Registry.declare given
    return none
  | .consume => Registry.consume
  | .reset => do
    Registry.reset
    return none

/-- An empty registry after calls, one after the other, whichever of them fail. -/
def after (calls : List Call) : Registry :=
  calls.foldl (fun registry call => (call.act.perform registry).2) {}

/-- A call fails, whatever waits. -/
def Call.Fails (call : Call) : Prop := ∀ registry, ∃ f, (call.act.perform registry).1 = .error f

/-- By the calls alone restrictions wait: a declaration of them did not fail, and all that came since
then are declarations that failed. -/
def Waits (calls : List Call) (r : RestrictionSet) : Prop :=
  ∃ before since, calls = before ++ .declare (some r) :: since ∧
    ¬ (Call.declare (some r)).Fails ∧ ∀ call ∈ since, call.Fails

variable {calls : List Call} {call : Call} {given : Option RestrictionSet} {r : RestrictionSet}
  {registry next : Registry} {f : Failure}

/-! ## One call -/

theorem perform_consume (registry : Registry) :
    Call.consume.act.perform registry = (.ok registry.pending, {}) := rfl

theorem perform_reset (registry : Registry) :
    Call.reset.act.perform registry = (.ok none, {}) := rfl

theorem not_fails_of_perform {answer : Option RestrictionSet}
    (h : call.act.perform registry = (.ok answer, next)) : ¬ call.Fails := by
  intro hfails
  obtain ⟨f, hf⟩ := hfails registry
  rw [h] at hf
  cases hf

/-- Restrictions that can be listed are declared. What is declared otherwise fails and is in place
all the same. -/
theorem perform_declare_cases (given : Option RestrictionSet) :
    (∃ r, given = some r ∧ r.Listable ∧ ∀ registry,
      (Call.declare given).act.perform registry = (.ok none, ⟨given⟩)) ∨
    ((Call.declare given).Fails ∧ ∀ registry,
      ((Call.declare given).act.perform registry).2 = ⟨given⟩) := by
  cases given with
  | none => exact .inr ⟨fun _ => ⟨.noMember, rfl⟩, fun _ => rfl⟩
  | some r =>
    cases hlists : r.listed with
    | ok lists =>
      refine .inl ⟨r, rfl, ⟨lists, hlists⟩, fun registry => ?_⟩
      simp only [Call.act, declare, hlists]
      rfl
    | error f =>
      have hperform (registry : Registry) :
          (Call.declare (some r)).act.perform registry = (.error f, ⟨some r⟩) := by
        simp only [Call.act, declare, hlists]
        rfl
      exact .inr ⟨fun registry => ⟨f, by rw [hperform]⟩, fun registry => by rw [hperform]⟩

theorem pending_declare (given : Option RestrictionSet) (registry : Registry) :
    ((Call.declare given).act.perform registry).2 = ⟨given⟩ := by
  rcases perform_declare_cases given with ⟨-, -, -, hperform⟩ | ⟨-, hperform⟩
  · rw [hperform]
  · exact hperform registry

theorem fails_of_perform (h : (Call.declare given).act.perform registry = (.error f, next)) :
    (Call.declare given).Fails := by
  rcases perform_declare_cases given with ⟨-, -, -, hperform⟩ | ⟨hfails, -⟩
  · cases (hperform registry).symm.trans h
  · exact hfails

/-! ## Calls one after the other -/

theorem after_append_singleton (calls : List Call) (call : Call) :
    after (calls ++ [call]) = (call.act.perform (after calls)).2 := by
  rw [after, List.foldl_append]
  rfl

theorem not_waits_nil : ¬ Waits [] r := by
  rintro ⟨before, since, h, -⟩
  simp at h

/-- Restrictions wait if they were declared just now, or if they waited and a declaration failed. -/
theorem waits_append_singleton :
    Waits (calls ++ [call]) r ↔
      call = .declare (some r) ∧ ¬ call.Fails ∨ call.Fails ∧ Waits calls r := by
  constructor
  · rintro ⟨before, since, heq, hdeclared, hsince⟩
    rcases concat_eq_append_cons heq with ⟨-, rfl, -⟩ | ⟨since, rfl, rfl⟩
    · exact .inl ⟨rfl, hdeclared⟩
    · obtain ⟨hsince, hlast⟩ := List.forall_mem_append.1 hsince
      exact .inr ⟨hlast call (by simp), before, since, rfl, hdeclared, hsince⟩
  · rintro (⟨rfl, hdeclared⟩ | ⟨hfails, before, since, rfl, hdeclared, hsince⟩)
    · exact ⟨calls, [], rfl, hdeclared, by simp⟩
    · refine ⟨before, since ++ [call], by simp, hdeclared, ?_⟩
      exact List.forall_mem_append.2 ⟨hsince, by simpa using hfails⟩

/-- The failing declarations among calls leave what waits as it was. -/
def KeepsWaiting (calls : List Call) : Prop :=
  ∀ before given f next, before ++ [.declare given] <+: calls →
    (Call.declare given).act.perform (after before) = (.error f, next) → next = after before

theorem KeepsWaiting.of_isPrefix {before : List Call} (h : KeepsWaiting calls)
    (hbefore : before <+: calls) : KeepsWaiting before :=
  fun earlier given f next hearlier => h earlier given f next (hearlier.trans hbefore)

/-- A declaration that fails and leaves what waits as it was declares what waits already. -/
theorem KeepsWaiting.pending_eq {before : List Call} (h : KeepsWaiting calls)
    (hbefore : before ++ [.declare given] <+: calls) (hfails : (Call.declare given).Fails) :
    (after before).pending = given := by
  obtain ⟨f, hf⟩ := hfails (after before)
  have hnext : ((Call.declare given).act.perform (after before)).2 = after before :=
    h before given f _ hbefore (Prod.ext hf rfl)
  rw [← hnext, pending_declare]

/-- Where failing declarations keep what waits, the registry holds what waits by the calls. -/
theorem pending_eq_iff_waits (h : KeepsWaiting calls) :
    (after calls).pending = some r ↔ Waits calls r := by
  induction calls using List.reverseRecOn with
  | nil => exact ⟨nofun, fun hwaits => absurd hwaits not_waits_nil⟩
  | append_singleton calls call ih =>
    rw [waits_append_singleton]
    cases call with
    | declare given =>
      rcases perform_declare_cases given with ⟨s, rfl, -, hperform⟩ | ⟨hfails, -⟩
      · have hfine := not_fails_of_perform (hperform (after calls))
        rw [after_append_singleton, hperform]
        simp [hfine]
      · have hwaited : given = some r ↔ Waits calls r := by
          rw [← h.pending_eq List.prefix_rfl hfails]
          exact ih (h.of_isPrefix (List.prefix_append _ _))
        rw [after_append_singleton, pending_declare]
        simp [hfails, hwaited]
    | consume =>
      have hfine := not_fails_of_perform (perform_consume (after calls))
      rw [after_append_singleton, perform_consume]
      simp [hfine]
    | reset =>
      have hfine := not_fails_of_perform (perform_reset (after calls))
      rw [after_append_singleton, perform_reset]
      simp [hfine]

/-- What is asked of calls: a declaration that fails leaves what waits as it was, and what is taken
out is what the last declaration that did not fail has left. -/
structure Undisturbed (calls : List Call) : Prop where
  kept : KeepsWaiting calls
  taken : ∀ before, before ++ [.consume] <+: calls →
    ∃ answer next, Call.consume.act.perform (after before) = (.ok answer, next) ∧
      ∀ r, answer = some r ↔ Waits before r

/-- **Failing declarations have no effect only where there is nothing to disturb.** They leave what
waits as it was, and what is taken out is always what the last declaration that did not fail has
left, exactly if every failing one gives nothing at a time when nothing waits. For what is declared
is in place even if declaring it fails. -/
theorem undisturbed_iff (calls : List Call) :
    (Undisturbed calls ↔
      ∀ before given, before ++ [.declare given] <+: calls → (Call.declare given).Fails →
        given = none ∧ (after before).pending = none) ∧
    ∀ given, (after (calls ++ [.declare given])).pending = given := by
  refine ⟨⟨?_, fun h => ?_⟩, fun given => ?_⟩
  · rintro ⟨hkept, -⟩ before given hbefore hfails
    have hwaited := hkept.pending_eq hbefore hfails
    cases given with
    | none => exact ⟨rfl, hwaited⟩
    | some r =>
      -- By the calls only restrictions wait whose declaration did not fail.
      have hprefix := hkept.of_isPrefix ((List.prefix_append _ _).trans hbefore)
      obtain ⟨_, _, _, hfine, _⟩ := (pending_eq_iff_waits hprefix).1 hwaited
      exact absurd hfails hfine
  · have hkept : KeepsWaiting calls := by
      intro before given f next hbefore hperform
      obtain ⟨rfl, hnone⟩ := h before given hbefore (fails_of_perform hperform)
      have hnext := pending_declare none (after before)
      rw [hperform] at hnext
      exact hnext.trans (congrArg Registry.mk hnone.symm)
    refine ⟨hkept, fun before hbefore => ⟨_, _, perform_consume (after before), fun r => ?_⟩⟩
    exact pending_eq_iff_waits (hkept.of_isPrefix ((List.prefix_append _ _).trans hbefore))
  · rw [after_append_singleton, pending_declare]

/-- Item 1 as restrictions. -/
def firstItem : RestrictionSet := .ofRules [(.itemIds, .int 1)]

/-- A number and a text among the item ids, which cannot be listed beside each other. -/
def numberAndText : RestrictionSet := .ofRules [(.itemIds, .int 1), (.itemIds, .text "a")]

theorem fails_numberAndText : (Call.declare (some numberAndText)).Fails := by
  rcases perform_declare_cases (some numberAndText) with ⟨r, hr, ⟨lists, hlists⟩, -⟩ | ⟨hfails, -⟩
  · cases hr
    have hnone : numberAndText.listed = .error .shape := by decide +kernel
    cases hnone.symm.trans hlists
  · exact hfails

/-- Restrictions that cannot be listed drive out those that waited and are taken out in their place;
a declaration of nothing leaves nothing waiting. Both fail. -/
theorem failing_declaration_drives_out_what_waited :
    (∃ f, (Call.declare (some numberAndText)).act.perform (after [.declare (some firstItem)]) =
      (.error f, after [.declare (some firstItem), .declare (some numberAndText)])) ∧
    (Call.consume.act.perform
      (after [.declare (some firstItem), .declare (some numberAndText)])).1 =
        .ok (some numberAndText) ∧
    ¬ Undisturbed [.declare (some firstItem), .declare (some numberAndText), .consume] ∧
    ¬ Undisturbed [.declare (some firstItem), .declare none, .consume] := by
  have hwaits : (after [.declare (some firstItem)]).pending = some firstItem :=
    congrArg Registry.pending (pending_declare (some firstItem) {})
  refine ⟨?_, ?_, fun h => ?_, fun h => ?_⟩
  · obtain ⟨f, hf⟩ := fails_numberAndText (after [.declare (some firstItem)])
    exact ⟨f, Prod.ext hf rfl⟩
  · rw [perform_consume]
    exact congrArg (fun registry => Except.ok registry.pending)
      (pending_declare (some numberAndText) (after [.declare (some firstItem)]))
  · have hcalls : [Call.declare (some firstItem)] ++ [.declare (some numberAndText)] <+:
        [.declare (some firstItem), .declare (some numberAndText), .consume] := ⟨[.consume], rfl⟩
    have hsame := h.kept.pending_eq hcalls fails_numberAndText
    rw [hwaits] at hsame
    exact absurd hsame (by decide +kernel)
  · have hcalls : [Call.declare (some firstItem)] ++ [.declare none] <+:
        [.declare (some firstItem), .declare none, .consume] := ⟨[.consume], rfl⟩
    have hsame := h.kept.pending_eq hcalls fun _ => ⟨.noMember, rfl⟩
    rw [hwaits] at hsame
    cases hsame

end SellRules.Registry
