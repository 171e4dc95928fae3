import SellRules.Proofs.Restriction.Lookup
import SellRules.Proofs.Restriction.Typed

/-!
# Declarations compose by union

A union has what either of two typed restriction sets has and allows an entry if either does
(`RestrictionSet.joins_union`). The rules are tried one after another and the tags last, but each
member of a set says yes for itself, so the first yes comes from a member that one of the two sets
has (`RestrictionSet.allows_iff`). Tokens are classified one by one, and so the tokens of two lists
together declare the union (`Token.declarations_compose`).
-/

set_option autoImplicit false

namespace SellRules

/-! ## Members -/

namespace Scalar

theorem order_text_eq {s t : String} : order (.text s) (.text t) = .eq ↔ s = t := by
  simp [order, compareOn, rank, units, wording, Std.LawfulEqCmp.compare_eq_iff_eq]

end Scalar

theorem ScalarSet.has_union_iff {s t : ScalarSet} {v : Value} :
    has (s.union t) v = .ok true ↔ s.has v = .ok true ∨ t.has v = .ok true := by
  cases v with
  | list items | object fields | unpaired codes => simp [has, Scalar.ofValue?]
  | null | bool b | int n | float x | text s =>
    simp only [has, Scalar.ofValue?, Except.ok.injEq, OrderedList.contains_union_iff]

namespace RestrictionSet

/-- Values for one rule are the same if they are equal. -/
theorem eq_of_suits {rule : Rule} {a b : Scalar} (ha : Suits rule a) (hb : Suits rule b)
    (h : a.order b = .eq) : a = b := by
  unfold Suits at ha hb
  split at ha
  · obtain ⟨s, rfl⟩ := ha
    obtain ⟨t, rfl⟩ : ∃ t, b = .text t := by simpa [*] using hb
    rw [Scalar.order_text_eq.1 h]
  · obtain ⟨m, rfl⟩ := ha
    obtain ⟨n, rfl⟩ : ∃ n, b = .int n := by simpa [*] using hb
    rw [Scalar.order_int_eq.1 h]

theorem Typed.suits {r : RestrictionSet} (hr : r.Typed) {rule : Rule} {a : Scalar}
    (ha : a ∈ r.get rule) : Suits rule a := by
  by_cases hrule : rule = .tags
  · subst hrule
    exact hr.tags a ha
  · obtain ⟨n, rfl⟩ := hr.ids rule hrule a ha
    exact suits_int hrule n

/-- A restriction set has the values that were given for its rules. -/
theorem mem_ofRules_iff {rules : List (Rule × Scalar)} (h : ∀ x ∈ rules, Suits x.1 x.2)
    {rule : Rule} {a : Scalar} : a ∈ (ofRules rules).get rule ↔ (rule, a) ∈ rules := by
  refine ⟨mem_of_mem_ofRules, fun ha => ?_⟩
  have hsuits : ∀ b ∈ (rules.filter fun x => x.1 = rule).map (·.2), Suits rule b := by
    intro b hb
    obtain ⟨⟨other, b⟩, hmem, rfl⟩ := List.mem_map.1 hb
    obtain ⟨hrules, hrule⟩ := List.mem_filter.1 hmem
    obtain rfl : other = rule := of_decide_eq_true hrule
    exact h _ hrules
  rw [ofRules, get_ofSets]
  refine (OrderedList.mem_ofList_iff fun b hb c hc => ?_).2 (by simpa using ha)
  exact eq_of_suits (hsuits b hb) (hsuits c hc)

/-! ## Answers -/

/-- A plain entry is allowed on account of one of its ids or of one of the tags. -/
theorem allows_iff (r : RestrictionSet) {e : Entry} (he : e.Plain) :
    r.allows e = .ok true ↔
      .ok true ∈ r.idAnswers e ∨ ∃ tag ∈ r.tags, marked e tag = .ok true := by
  have htags : .ok true ∈ r.tagAnswers e ↔ ∃ tag ∈ r.tags, marked e tag = .ok true := by
    simp only [tagAnswers, List.mem_map]
    rfl
  rw [← htags]
  constructor
  · exact fun h => List.mem_append.1 (mem_of_firstYes h)
  · rintro (h | h)
    · exact firstYes_append_of_yes (fun _ ha => exists_idAnswer r he ha) h _
    · -- Where one tag has an answer the markers are an object, so no other tag fails.
      obtain ⟨markers, hmarkers⟩ : ∃ markers, e.markers = .object markers := by
        obtain ⟨tag, -, htag⟩ := htags.1 h
        unfold marked at htag
        split at htag
        · exact ⟨_, ‹_›⟩
        · exact ⟨_, ‹_›⟩
        · cases htag
      have hall : ∀ a ∈ r.idAnswers e ++ r.tagAnswers e, ∃ b, a = .ok b := fun _ ha =>
        (List.mem_append.1 ha).elim (exists_idAnswer r he) (exists_tagAnswer r hmarkers)
      have hyes := firstYes_append_of_yes hall (List.mem_append_right _ h) []
      rwa [List.append_nil] at hyes

/-- The ids of an entry are named by a union if one of its parts names them. -/
theorem yes_mem_idAnswers_union {r s : RestrictionSet} {e : Entry} :
    .ok true ∈ (r.union s).idAnswers e ↔
      .ok true ∈ r.idAnswers e ∨ .ok true ∈ s.idAnswers e := by
  simp only [idAnswers, union, ofSets, get, List.mem_append, List.mem_ite_nil_right,
    List.mem_cons, List.not_mem_nil, or_false, eq_comm (a := Except.ok true),
    ScalarSet.has_union_iff, and_or_left]
  apply iff_of_eq
  ac_rfl

/-! ## Unions -/

/-- A restriction set has what either of two has, and allows an entry if either does. -/
structure Joins (t r s : RestrictionSet) : Prop where
  mem_iff : ∀ rule a, a ∈ t.get rule ↔ a ∈ r.get rule ∨ a ∈ s.get rule
  allows_iff : ∀ e : Entry, e.Plain →
    (t.allows e = .ok true ↔ r.allows e = .ok true ∨ s.allows e = .ok true)
  /-- With an object of markers all three have an answer. -/
  allows_eq : ∀ (e : Entry) (markers : Fields), e.Plain → e.markers = .object markers →
    ∃ a b, r.allows e = .ok a ∧ s.allows e = .ok b ∧ t.allows e = .ok (a || b)

theorem mem_union_iff {r s : RestrictionSet} (hr : r.Typed) (hs : s.Typed) (rule : Rule)
    (a : Scalar) : a ∈ (r.union s).get rule ↔ a ∈ r.get rule ∨ a ∈ s.get rule := by
  rw [union, get_ofSets]
  exact OrderedList.mem_union_iff fun a ha b hb => eq_of_suits (hr.suits ha) (hs.suits hb)

theorem allows_union_iff {r s : RestrictionSet} (hr : r.Typed) (hs : s.Typed) {e : Entry}
    (he : e.Plain) :
    (r.union s).allows e = .ok true ↔ r.allows e = .ok true ∨ s.allows e = .ok true := by
  have htags : ∀ tag, tag ∈ (r.union s).tags ↔ tag ∈ r.tags ∨ tag ∈ s.tags :=
    mem_union_iff hr hs .tags
  simp only [RestrictionSet.allows_iff _ he, yes_mem_idAnswers_union, htags, or_and_right,
    exists_or]
  exact or_or_or_comm

theorem joins_union {r s : RestrictionSet} (hr : r.Typed) (hs : s.Typed) :
    (r.union s).Joins r s where
  mem_iff := mem_union_iff hr hs
  allows_iff _ he := allows_union_iff hr hs he
  allows_eq e markers he hmarkers := by
    obtain ⟨a, ha⟩ := exists_allows r he hmarkers
    obtain ⟨b, hb⟩ := exists_allows s he hmarkers
    obtain ⟨c, hc⟩ := exists_allows (r.union s) he hmarkers
    have hiff := allows_union_iff hr hs he
    refine ⟨a, b, ha, hb, ?_⟩
    rw [hc]
    rw [ha, hb, hc] at hiff
    simp only [Except.ok.injEq] at hiff ⊢
    rw [Bool.eq_iff_iff, hiff, Bool.or_eq_true]

end RestrictionSet

/-! ## Tokens -/

namespace Token

open RestrictionSet (mem_ofRules_iff Suits)

/-- Tokens declare the values that they are classified as. -/
theorem mem_get_parse_iff {tokens : List String} {r : RestrictionSet} (h : parse tokens = .ok r)
    {rule : Rule} {a : Scalar} :
    a ∈ r.get rule ↔ ∃ token ∈ tokens, classify token = .ok (rule, a) := by
  obtain ⟨rules, hrules, h⟩ := bind_eq_ok.1 h
  cases h
  have hsuits : ∀ x ∈ rules, Suits x.1 x.2 :=
    forall_of_mapM_eq_ok (P := fun x => Suits x.1 x.2) (fun _ _ => suits_classify) hrules
  rw [mem_ofRules_iff hsuits, mem_of_mapM_eq_ok hrules]

/-- Tokens declare a restriction set if each of them is classified. -/
theorem exists_parse_iff {tokens : List String} :
    (∃ r, parse tokens = .ok r) ↔ ∀ token ∈ tokens, ∃ x, classify token = .ok x := by
  constructor
  · rintro ⟨r, h⟩
    obtain ⟨rules, hrules, -⟩ := bind_eq_ok.1 h
    exact exists_of_mapM_eq_ok hrules
  · intro h
    obtain ⟨rules, hrules, -⟩ := exists_mapM_eq_ok h
    exact ⟨_, by rw [parse, hrules]; rfl⟩

/-- The order of tokens and their repetition make no difference. -/
theorem parse_congr {xs ys : List String} {r : RestrictionSet} (hr : parse xs = .ok r)
    (h : ∀ token, token ∈ ys ↔ token ∈ xs) : parse ys = .ok r := by
  obtain ⟨s, hs⟩ := exists_parse_iff.2 fun token htoken =>
    exists_parse_iff.1 ⟨r, hr⟩ token ((h token).1 htoken)
  rw [hs]
  refine congrArg Except.ok (RestrictionSet.ext_get fun rule => OrderedList.ext_mem fun a => ?_)
  simp only [mem_get_parse_iff hs, mem_get_parse_iff hr, h]

theorem parse_append {xs ys : List String} {r s : RestrictionSet} (hr : parse xs = .ok r)
    (hs : parse ys = .ok s) : parse (xs ++ ys) = .ok (r.union s) := by
  obtain ⟨t, ht⟩ := exists_parse_iff.2 (List.forall_mem_append.2
    ⟨exists_parse_iff.1 ⟨r, hr⟩, exists_parse_iff.1 ⟨s, hs⟩⟩)
  rw [ht]
  refine congrArg Except.ok (RestrictionSet.ext_get fun rule => OrderedList.ext_mem fun a => ?_)
  simp only [RestrictionSet.mem_union_iff (typed_parse hr) (typed_parse hs),
    mem_get_parse_iff hr, mem_get_parse_iff hs, mem_get_parse_iff ht, List.mem_append, or_and_right,
    exists_or]

/-- What some tokens allow is allowed by more tokens. -/
theorem allows_of_subset {xs ys : List String} {r s : RestrictionSet} (hr : parse xs = .ok r)
    (hs : parse ys = .ok s) (h : xs ⊆ ys) {e : Entry} (he : e.Plain)
    (hallows : r.allows e = .ok true) : s.allows e = .ok true := by
  have happend : parse (xs ++ ys) = .ok s := parse_congr hs fun token => by
    rw [List.mem_append]
    exact or_iff_right_of_imp (@h token)
  have hunion : s = r.union s := Except.ok.inj (happend.symm.trans (parse_append hr hs))
  rw [hunion]
  exact (RestrictionSet.allows_union_iff (typed_parse hr) (typed_parse hs) he).2 (.inl hallows)

/-- **Declarations compose by union.** The tokens of two lists together declare the union of what
each list declares. A union, of these or of any typed restriction sets, has what either has and
allows what either allows. So neither the order of tokens nor their repetition matters, and more
tokens never forbid anything. -/
theorem declarations_compose {xs ys : List String} {r s : RestrictionSet} (hr : parse xs = .ok r)
    (hs : parse ys = .ok s) :
    parse (xs ++ ys) = .ok (r.union s) ∧ (r.union s).Joins r s ∧
      (∀ zs, (∀ token, token ∈ zs ↔ token ∈ xs) → parse zs = .ok r) ∧
      (xs ⊆ ys → ∀ e : Entry, e.Plain → r.allows e = .ok true → s.allows e = .ok true) ∧
      ∀ t u : RestrictionSet, t.Typed → u.Typed → (t.union u).Joins t u :=
  ⟨parse_append hr hs, RestrictionSet.joins_union (typed_parse hr) (typed_parse hs),
    fun _ h => parse_congr hr h, fun h _ he => allows_of_subset hr hs h he,
    fun _ _ => RestrictionSet.joins_union⟩

/-- A normal item with the id one and without markers. -/
def firstItem : Entry where
  id := .int 1
  name := .text "tonic"
  kind := .item
  itemTypeId := .int 1

/-- The first item stays allowed when the tag of fire is asked for as well. -/
theorem first_item_or_fire_composes :
    ∃ r s, parse ["i1"] = .ok r ∧ parse ["fire", "i1"] = .ok s ∧
      parse ["i1", "fire", "i1"] = .ok (r.union s) ∧ parse ["i1", "i1"] = .ok r ∧
      firstItem.Plain ∧ r.allows firstItem = .ok true ∧ s.allows firstItem = .ok true := by
  have hr : parse ["i1"] = .ok (.ofRules [(.itemIds, .int 1)]) := by decide +kernel
  have hs : parse ["fire", "i1"] = .ok (.ofRules [(.tags, .text "fire"), (.itemIds, .int 1)]) := by
    decide +kernel
  have hplain : firstItem.Plain := by simp [Entry.Plain, Entry.typeIds, firstItem, Value.hasParts]
  have hallows : RestrictionSet.allows (.ofRules [(.itemIds, .int 1)]) firstItem = .ok true := by
    decide +kernel
  obtain ⟨happend, -, hcongr, hmore, -⟩ := declarations_compose hr hs
  exact ⟨_, _, hr, hs, happend, hcongr _ (by simp), hplain, hallows,
    hmore (by simp) _ hplain hallows⟩

end Token
end SellRules
